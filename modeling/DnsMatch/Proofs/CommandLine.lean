import Mathlib
import DnsMatch.Proofs.Chain
import DnsMatch.Report

/-! # Options in any order

What a command line gives is a list of settings with their values, each in one
word or in two (`IsWritten`). Reading it adds the settings one by one, whichever
way they are written (`readOptions_of_isWritten`), so only the settings count.
If none is given twice, each is found wherever it stands (`Settings.lookup_perm`);
if one is, the command line is refused. -/

namespace DnsMatch

/-! ## Names of modes and formats -/

/-- Whether a text is a name with each letter in either case. -/
def IsCaseVariant (name text : String) : Prop :=
  List.Forall₂ (fun c d => d = c.toLower ∨ d = c.toUpper) name.toList text.toList

instance (name text : String) : Decidable (IsCaseVariant name text) :=
  inferInstanceAs (Decidable (List.Forall₂ _ _ _))

theorem Mode.isCaseVariant_name (mode : Mode) : IsCaseVariant mode.name mode.name := by
  cases mode <;> decide

theorem Mode.ofText?_name (mode : Mode) : ofText? mode.name = some mode := by
  cases mode <;> rfl

theorem Format.ofText?_name (format : Format) : ofText? format.name = some format := by
  cases format <;> rfl

theorem Mode.ofText?_of_isCaseVariant {mode : Mode} {text : String}
    (h : IsCaseVariant mode.name text) : ofText? text = some mode := by
  have hsame : text.toList.map Char.toLower = mode.name.toList.map Char.toLower := by
    rw [← List.forall₂_eq_eq_eq, List.forall₂_map_left_iff, List.forall₂_map_right_iff]
    refine h.flip.imp ?_
    rintro d c (rfl | rfl)
    · exact Char.toLower_toLower_eq_toLower c
    · exact Char.toLower_toUpper_eq_toLower c
  rw [← mode.ofText?_name]
  simp only [ofText?, Text.sameButCase, hsame]

namespace CommandLine

variable {allowed : List Setting} {settings given : Settings} {setting : Setting}
  {value : String} {words : List String}

/-! ## Words -/

def optionWord (setting : Setting) (value : String) : String :=
  "--" ++ setting.name ++ "=" ++ value

def optionName (setting : Setting) : String :=
  "--" ++ setting.name

/-- Whether words give settings their values, in the order of the settings. A value that starts
with a dash is not given in a word of its own. -/
inductive IsWritten : Settings → List String → Prop
  | nil : IsWritten [] []
  | joined {setting : Setting} {value : String} {settings : Settings} {words : List String}
      (rest : IsWritten settings words) :
      IsWritten ((setting, value) :: settings) (optionWord setting value :: words)
  | apart {setting : Setting} {value : String} {settings : Settings} {words : List String}
      (plain : value.toList.head? ≠ some '-') (rest : IsWritten settings words) :
      IsWritten ((setting, value) :: settings) (optionName setting :: value :: words)

theorem ofText_optionWord (setting : Setting) (value : String) :
    Word.ofText (optionWord setting value) = .long setting.name (some value) := by
  cases setting <;> simp [optionWord, Setting.name, Word.ofText]

theorem ofText_optionName (setting : Setting) :
    Word.ofText (optionName setting) = .long setting.name none := by
  cases setting <;> decide

theorem ofText_plain (h : value.toList.head? ≠ some '-') : Word.ofText value = .plain value := by
  unfold Word.ofText
  split <;> simp_all

/-! ## Reading options -/

theorem Setting.name_injective : name.Injective := by
  intro setting setting' h
  cases setting <;> cases setting' <;> first | rfl | exact absurd h (by decide)

theorem find?_name (h : setting ∈ allowed) :
    allowed.find? (·.name = setting.name) = some setting := by
  cases hfind : allowed.find? (·.name = setting.name) with
  | none => simpa using List.find?_eq_none.1 hfind setting h
  | some found =>
    have hname : found.name = setting.name := by simpa using List.find?_some hfind
    rw [Setting.name_injective hname]

namespace Settings

def keys (settings : Settings) : List Setting :=
  settings.map (·.1)

def addAll (settings given : Settings) : Except Refusal Settings :=
  given.foldlM (fun settings option => settings.add option.1 option.2) settings

theorem isSome_lookup_iff : (settings.lookup setting).isSome = true ↔ setting ∈ settings.keys := by
  rw [List.lookup_isSome_iff, keys, List.mem_map]
  exact exists_congr fun option => and_congr_right fun _ => beq_iff_eq.trans eq_comm

theorem nodup_keys_concat_iff : (settings ++ [(setting, value)]).keys.Nodup ↔
    setting ∉ settings.keys ∧ settings.keys.Nodup := by
  rw [keys, List.map_append, ← List.nodup_concat, List.concat_eq_append]
  rfl

theorem addAll_cons (settings : Settings) (setting : Setting) (value : String) (given : Settings) :
    settings.addAll ((setting, value) :: given) =
      settings.add setting value >>= (addAll · given) :=
  List.foldlM_cons

theorem add_of_mem (h : setting ∈ settings.keys) (value : String) :
    settings.add setting value = .error .repeatedOption :=
  if_pos (isSome_lookup_iff.2 h)

theorem add_of_not_mem (h : setting ∉ settings.keys) (hvalid : setting.objection? value = none) :
    settings.add setting value = .ok (settings ++ [(setting, value)]) := by
  rw [add, if_neg fun hsome => h (isSome_lookup_iff.1 hsome), hvalid]

section

variable (hvalid : ∀ option ∈ given, option.1.objection? option.2 = none)

include hvalid

/-- Settings that are all new are all added, in their order. -/
theorem addAll_of_nodup (hnodup : (settings ++ given).keys.Nodup) :
    settings.addAll given = .ok (settings ++ given) := by
  induction given generalizing settings with
  | nil => rw [List.append_nil]; rfl
  | cons option given ih =>
    obtain ⟨setting, value⟩ := option
    obtain ⟨hvalue, hvalid⟩ := List.forall_mem_cons.1 hvalid
    rw [List.append_cons] at hnodup ⊢
    have hnew : (settings ++ [(setting, value)]).keys.Nodup := by
      rw [keys, List.map_append] at hnodup
      exact hnodup.of_append_left
    rw [addAll_cons, add_of_not_mem (nodup_keys_concat_iff.1 hnew).1 hvalue]
    exact ih hvalid hnodup

/-- The first setting that is there already is refused. -/
theorem addAll_of_not_nodup (hnodup : settings.keys.Nodup)
    (hrepeated : ¬(settings ++ given).keys.Nodup) :
    settings.addAll given = .error .repeatedOption := by
  induction given generalizing settings with
  | nil => exact absurd hnodup (by rwa [List.append_nil] at hrepeated)
  | cons option given ih =>
    obtain ⟨setting, value⟩ := option
    obtain ⟨hvalue, hvalid⟩ := List.forall_mem_cons.1 hvalid
    rw [addAll_cons]
    by_cases hmem : setting ∈ settings.keys
    · rw [add_of_mem hmem]
      rfl
    · rw [add_of_not_mem hmem hvalue]
      rw [List.append_cons] at hrepeated
      exact ih hvalid (nodup_keys_concat_iff.2 ⟨hmem, hnodup⟩) hrepeated

end

/-- A setting that is given once is found wherever it stands. -/
theorem lookup_perm (h : settings.Perm given) (hnodup : settings.keys.Nodup) (setting : Setting) :
    settings.lookup setting = given.lookup setting := by
  induction h with
  | nil => rfl
  | cons option h ih =>
    rw [List.lookup_cons, List.lookup_cons, ih (List.nodup_cons.1 hnodup).2]
  | swap option option' settings =>
    have hne : option'.1 ≠ option.1 := by
      rintro heq
      simp [keys, heq] at hnodup
    rw [List.lookup_cons, List.lookup_cons, List.lookup_cons, List.lookup_cons]
    by_cases hfirst : setting = option.1
    · simp [hfirst, beq_eq_false_iff_ne.2 hne.symm]
    · simp [beq_eq_false_iff_ne.2 hfirst]
  | trans h _ ih ih' =>
    rw [ih hnodup, ih' ((h.map _).nodup_iff.1 hnodup)]

end Settings

/-- Reading options adds what is written, after what is pending. -/
theorem readOptions_of_isWritten (h : IsWritten given words)
    (hallowed : ∀ setting ∈ given.keys, setting ∈ allowed) (settings : Settings)
    (pending? : Option Pending) :
    readOptions allowed settings pending? words =
      settle settings pending? >>= (Settings.addAll · given) := by
  induction h generalizing settings pending? with
  | nil => exact (bind_pure _).symm
  | @joined setting value given words rest ih =>
    obtain ⟨hsetting, hallowed⟩ := List.forall_mem_cons.1 hallowed
    simp only [readOptions, ofText_optionWord, find?_name (show setting ∈ allowed from hsetting)]
    cases hsettle : settle settings pending? with
    | error refusal => rfl
    | ok settled =>
      simp only [ok_bind, Settings.addAll_cons]
      cases hadd : settled.add setting value with
      | error refusal => rfl
      | ok added => exact ih hallowed added none
  | @apart setting value given words plain rest ih =>
    obtain ⟨hsetting, hallowed⟩ := List.forall_mem_cons.1 hallowed
    simp only [readOptions, ofText_optionName, find?_name (show setting ∈ allowed from hsetting)]
    cases hsettle : settle settings pending? with
    | error refusal => rfl
    | ok settled =>
      simp only [ofText_plain plain, ok_bind, Settings.addAll_cons]
      exact ih hallowed settled (some ⟨setting, some value⟩)

/-- Options with valid values are all read, in their order, or one of them is repeated. -/
theorem readOptions_of_valid (hallowed : ∀ setting ∈ given.keys, setting ∈ allowed)
    (hvalid : ∀ option ∈ given, option.1.objection? option.2 = none) (h : IsWritten given words) :
    readOptions allowed [] none words =
      if given.keys.Nodup then .ok given else .error .repeatedOption := by
  rw [readOptions_of_isWritten h hallowed]
  change Settings.addAll [] given = _
  split
  · next hnodup => exact Settings.addAll_of_nodup hvalid hnodup
  · next hrepeated => exact Settings.addAll_of_not_nodup hvalid List.nodup_nil hrepeated

/-! ## Comparisons -/

inductive Setting.Takes : Setting → String → Prop
  | expected {path : String} (nonempty : path ≠ "") : Takes .expected path
  | actual {path : String} (nonempty : path ≠ "") : Takes .actual path
  | mode {mode : Mode} {text : String} (variant : IsCaseVariant mode.name text) : Takes .mode text
  | format (format : Format) : Takes .format format.name

theorem Setting.Takes.objection?_eq_none (h : setting.Takes value) :
    setting.objection? value = none := by
  cases h with
  | expected nonempty => exact if_neg nonempty
  | actual nonempty => exact if_neg nonempty
  | mode variant => simp [objection?, Mode.ofText?_of_isCaseVariant variant]
  | format format => simp [objection?, format.ofText?_name]

theorem Setting.Takes.mem (h : setting.Takes value) :
    setting ∈ [Setting.expected, .actual, .mode, .format] := by
  cases h <;> decide

/-- What may be given for a choice: a text that spells it, or nothing where it is the default. -/
inductive Choice (setting : Setting) (spells : String → Prop) (isDefault : Prop) : Settings → Prop
  | leftOut (default : isDefault) : Choice setting spells isDefault []
  | spelled {text : String} (spelling : spells text) :
      Choice setting spells isDefault [(setting, text)]

theorem Choice.takes {spells : String → Prop} {isDefault : Prop}
    (h : Choice setting spells isDefault given)
    (hspells : ∀ text, spells text → setting.Takes text) :
    ∀ option ∈ given, option.1.Takes option.2 := by
  cases h with
  | leftOut default => exact fun _ hmem => absurd hmem List.not_mem_nil
  | spelled spelling => exact List.forall_mem_singleton.2 (hspells _ spelling)

/-- Whether settings ask for the comparison of two files in a mode and a format. They may do so in
any order. -/
def AsksFor (expected actual : String) (mode : Mode) (format : Format) (settings : Settings) :
    Prop :=
  ∃ modes formats, Choice .mode (IsCaseVariant mode.name) (mode = .ignoreTtls) modes ∧
    Choice .format (· = format.name) (format = .raw) formats ∧
      settings.Perm ([(.expected, expected), (.actual, actual)] ++ modes ++ formats)

/-- Reading options that have values which they take comes to them, unless one is repeated. -/
theorem readOptions_of_takes (htakes : ∀ option ∈ given, option.1.Takes option.2)
    (h : IsWritten given words) :
    readOptions [.expected, .actual, .mode, .format] [] none words =
      if given.keys.Nodup then .ok given else .error .repeatedOption := by
  refine readOptions_of_valid (fun setting hmem => ?_)
    (fun option hmem => (htakes option hmem).objection?_eq_none) h
  obtain ⟨option, hoption, rfl⟩ := List.mem_map.1 hmem
  exact (htakes option hoption).mem

section

variable {expected actual : String} {mode : Mode} {format : Format}

theorem AsksFor.takes (h : AsksFor expected actual mode format settings)
    (hexpected : expected ≠ "") (hactual : actual ≠ "") :
    ∀ option ∈ settings, option.1.Takes option.2 := by
  obtain ⟨modes, formats, hmode, hformat, hperm⟩ := h
  have hmodes : ∀ option ∈ modes, option.1.Takes option.2 := hmode.takes fun _ => .mode
  have hformats : ∀ option ∈ formats, option.1.Takes option.2 :=
    hformat.takes fun _ heq => heq ▸ .format format
  intro option hmem
  rw [hperm.mem_iff] at hmem
  revert option
  rw [List.forall_mem_append, List.forall_mem_append, List.forall_mem_cons,
    List.forall_mem_singleton]
  exact ⟨⟨⟨.expected hexpected, .actual hactual⟩, hmodes⟩, hformats⟩

theorem AsksFor.nodup (h : AsksFor expected actual mode format settings) :
    settings.keys.Nodup := by
  obtain ⟨modes, formats, hmode, hformat, hperm⟩ := h
  refine (hperm.map _).nodup_iff.2 ?_
  cases hmode <;> cases hformat <;> simp

/-- What is given for a choice is found, or else the default is taken. -/
theorem AsksFor.lookups (h : AsksFor expected actual mode format settings) :
    settings.lookup .expected = some expected ∧ settings.lookup .actual = some actual ∧
      ((settings.lookup .mode).bind Mode.ofText?).getD Mode.default = mode ∧
      ((settings.lookup .format).bind Format.ofText?).getD Format.default = format := by
  have hnodup := h.nodup
  obtain ⟨modes, formats, hmode, hformat, hperm⟩ := h
  simp only [Settings.lookup_perm hperm hnodup]
  refine ⟨rfl, rfl, ?_, ?_⟩
  · cases hmode with
    | leftOut default =>
      subst default
      cases hformat <;> rfl
    | @spelled text spelling =>
      change ((some text).bind Mode.ofText?).getD _ = mode
      rw [Option.bind_some, Mode.ofText?_of_isCaseVariant spelling, Option.getD_some]
  · have hspelled : ((some format.name).bind Format.ofText?).getD Format.default = format := by
      rw [Option.bind_some, format.ofText?_name, Option.getD_some]
    cases hformat with
    | leftOut default =>
      subst default
      cases hmode <;> rfl
    | spelled spelling =>
      subst spelling
      cases hmode <;> exact hspelled

/-- Settings that ask for a comparison are found to do so, however they are written. -/
theorem AsksFor.read_eq (h : AsksFor expected actual mode format settings)
    (hexpected : expected ≠ "") (hactual : actual ≠ "") (hwritten : IsWritten settings words) :
    read ("compare" :: words) = .ok (.compare ⟨expected⟩ ⟨actual⟩ mode format) := by
  obtain ⟨hexpectedPath, hactualPath, hmode, hformat⟩ := h.lookups
  have hoptions := readOptions_of_takes (h.takes hexpected hactual) hwritten
  rw [if_pos h.nodup] at hoptions
  change readCompare words = _
  simp only [readCompare, hoptions, ok_bind, Settings.path, hexpectedPath, hactualPath,
    hmode, hformat]
  rfl

end

/-! ## Command lines in full -/

def compareWords (expected actual : String) (mode : Mode) (format : Format) : List String :=
  ["compare", optionWord .expected expected, optionWord .actual actual,
    optionWord .mode mode.name, optionWord .format format.name]

def batchWords (path : Files.Path) : List String :=
  ["batch", optionWord .config path.text]

theorem read_compareWords {expected actual : String} (hexpected : expected ≠ "")
    (hactual : actual ≠ "") (mode : Mode) (format : Format) :
    read (compareWords expected actual mode format) =
      .ok (.compare ⟨expected⟩ ⟨actual⟩ mode format) := by
  have hasks : AsksFor expected actual mode format [(.expected, expected), (.actual, actual),
      (.mode, mode.name), (.format, format.name)] :=
    ⟨_, _, .spelled mode.isCaseVariant_name, .spelled rfl, .rfl⟩
  exact hasks.read_eq hexpected hactual (.joined (.joined (.joined (.joined .nil))))

theorem read_batchWords {path : Files.Path} (hne : path.text ≠ "") :
    read (batchWords path) = .ok (.batch path) := by
  have hwritten : IsWritten [(.config, path.text)] [optionWord .config path.text] := .joined .nil
  have hvalid : Setting.config.objection? path.text = none := if_neg hne
  have hoptions : readOptions [.config] [] none [optionWord .config path.text] =
      .ok [(.config, path.text)] :=
    readOptions_of_valid (fun _ hmem => hmem) (List.forall_mem_singleton.2 hvalid) hwritten
  change readBatch [optionWord .config path.text] = _
  rw [readBatch, hoptions]
  rfl

/-! ## Any order -/

/-- **The options of a comparison may be given in any order, each in one word or in two.** Its files
are then those that are named, whatever their names look like, in the mode and the format that are
named in letters of either case and to the letter, or in the default ones where they are left out;
and the configuration is of one pair of these files. If an option is given twice, even with the same
value, nothing is compared. -/
theorem compare_reads_in_any_order :
    (∀ expected actual mode format settings words, expected ≠ "" → actual ≠ "" →
      AsksFor expected actual mode format settings → IsWritten settings words →
        read ("compare" :: words) = .ok (.compare ⟨expected⟩ ⟨actual⟩ mode format) ∧
        ∀ files, ∃ config pair,
          ((Command.compare ⟨expected⟩ ⟨actual⟩ mode format).config files).result = .ok config ∧
            config.pairs = [pair] ∧ pair.name? = none ∧ pair.expected.text = expected ∧
            pair.actual.text = actual ∧ pair.mode config = mode ∧ pair.format config = format) ∧
    ∀ settings words, (∀ option ∈ settings, option.1.Takes option.2) → IsWritten settings words →
      ¬settings.keys.Nodup → read ("compare" :: words) = .error .repeatedOption := by
  refine ⟨fun expected actual mode format settings words hexpected hactual hasks hwritten =>
    ⟨hasks.read_eq hexpected hactual hwritten, fun files => ?_⟩,
    fun settings words htakes hwritten hrepeated => ?_⟩
  · exact ⟨Config.single mode format ⟨expected⟩ ⟨actual⟩, _, rfl, rfl, rfl, rfl, rfl, rfl, rfl⟩
  · change readCompare words = _
    rw [readCompare, readOptions_of_takes htakes hwritten, if_neg hrepeated]
    rfl

/-- A value may look like a command or hold an equals sign. -/
theorem compare_reads_in_any_order_sample :
    read ["compare", "--format", "hex", "--mode=Ignore-TTLs", "--actual=a=b",
      "--expected", "help"] = .ok (.compare ⟨"help"⟩ ⟨"a=b"⟩ .ignoreTtls .hex) ∧
    read ["compare", "--mode", "exact", "--mode=EXACT"] = .error .repeatedOption := by
  have hvariant : IsCaseVariant Mode.ignoreTtls.name "Ignore-TTLs" := by decide
  have hvariant' : IsCaseVariant Mode.exact.name "EXACT" := by decide
  have hasks : AsksFor "help" "a=b" .ignoreTtls .hex [(.format, "hex"), (.mode, "Ignore-TTLs"),
      (.actual, "a=b"), (.expected, "help")] :=
    ⟨_, _, .spelled hvariant, .spelled rfl, by decide⟩
  refine ⟨(compare_reads_in_any_order.1 _ _ _ _ _ _ (by decide) (by decide) hasks
    (.apart (by decide) (.joined (.joined (.apart (by decide) .nil))))).1, ?_⟩
  refine compare_reads_in_any_order.2 [(.mode, "exact"), (.mode, "EXACT")] _ ?_
    (.apart (by decide) (.joined .nil)) (by decide)
  exact List.forall_mem_cons.2
    ⟨.mode Mode.exact.isCaseVariant_name, List.forall_mem_singleton.2 (.mode hvariant')⟩

end CommandLine

end DnsMatch
