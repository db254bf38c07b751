import DnsMatch.Files.Path
import Mathlib.Data.List.DropRight

/-! # What a path is made of

A path is a way of components: one for the root that it starts from or for the
working directory if it says so, and one for each piece that names something
(`components`). The directory of a path has all of its components but the last
(`components_of_parent?`), and a relative path that is taken in a directory
has the components of both, dots aside (`steps_within`). Two dots are a
component like any other: nothing in front of them is taken away. -/

namespace DnsMatch.Files

inductive Component where
  | root
  | current
  | parent
  | normal (piece : List Char)
deriving DecidableEq, Repr

def Component.ofPiece (piece : List Char) : Component :=
  if piece = ['.', '.'] then .parent else .normal piece

namespace Path

variable {path directory : Path} {first piece : List Char} {rest : List (List Char)}

/-! ## Pieces -/

theorem slash_not_mem_of_mem_splitOn {text : List Char} (h : piece ∈ text.splitOn '/') :
    '/' ∉ piece := by
  induction text generalizing piece with
  | nil => simp_all
  | cons char text ih =>
    rw [List.splitOn_cons_eq_if_modifyHead] at h
    split at h
    · obtain rfl | h := List.mem_cons.1 h
      · exact List.not_mem_nil
      · exact ih h
    · next hne =>
      obtain ⟨first, rest, hsplit⟩ := List.exists_cons_of_ne_nil (List.splitOn_ne_nil '/' text)
      rw [hsplit] at h ih
      obtain rfl | h := List.mem_cons.1 h
      · rw [List.mem_cons, not_or]
        exact ⟨fun heq => hne (beq_iff_eq.2 heq.symm), ih List.mem_cons_self⟩
      · exact ih (List.mem_cons_of_mem _ h)

theorem slash_not_mem (h : piece ∈ path.pieces) : '/' ∉ piece :=
  slash_not_mem_of_mem_splitOn h

theorem exists_pieces_eq_cons (path : Path) : ∃ first rest, path.pieces = first :: rest :=
  List.exists_cons_of_ne_nil (List.splitOn_ne_nil '/' path.text.toList)

theorem pieces_ofPieces {pieces : List (List Char)} (hne : pieces ≠ [])
    (h : ∀ piece ∈ pieces, '/' ∉ piece) : (ofPieces pieces).pieces = pieces := by
  rw [ofPieces, Path.pieces, String.toList_ofList, List.splitOn_intercalate '/' h hne]

/-- An absolute path has an empty piece in front of its first slash. -/
theorem isAbsolute_iff (h : path.pieces = first :: rest) :
    path.isAbsolute = true ↔ first = [] ∧ rest ≠ [] := by
  have hfirst : '/' ∉ first := slash_not_mem (h ▸ List.mem_cons_self)
  have htext : path.text.toList = ['/'].intercalate (first :: rest) := by
    rw [← h, pieces, List.intercalate_splitOn]
  rw [isAbsolute, htext, beq_iff_eq]
  cases rest with
  | nil =>
    simp only [List.intercalate_singleton, ne_eq, not_true_eq_false, and_false, iff_false]
    exact fun hhead => hfirst (List.mem_of_mem_head? hhead)
  | cons second rest =>
    rw [List.intercalate_cons_cons]
    cases first with
    | nil => simp
    | cons char first =>
      have hchar : char ≠ '/' := fun heq => hfirst (heq ▸ List.mem_cons_self)
      simp [hchar]

/-- Void pieces at the end are taken away, up to one that names something or the first. -/
theorem exists_trimEnd (first : List Char) (rest : List (List Char)) :
    ∃ kept voids, rest = kept ++ voids ∧ voids.filter (!isVoid ·) = [] ∧
      trimEnd (first :: rest) = first :: kept ∧
      ∀ hne : kept ≠ [], isVoid (kept.getLast hne) = false := by
  have htrim : trimEnd (first :: rest) = first :: rest.rdropWhile isVoid := rfl
  refine ⟨rest.rdropWhile isVoid, rest.rtakeWhile isVoid, ?_, ?_, htrim, fun hne => ?_⟩
  · rw [List.rdropWhile_append_rtakeWhile]
  · rw [List.filter_eq_nil_iff]
    intro piece hmem
    simp [List.mem_rtakeWhile_imp hmem]
  · exact eq_false_of_ne_true (List.rdropWhile_last_not isVoid rest hne)

/-! ## Components -/

def start (path : Path) : List Component :=
  if path.isAbsolute then [.root]
  else if path.pieces.head? = some ['.'] then [.current]
  else []

/-- The components of a path, in their order. -/
def components (path : Path) : List Component :=
  path.start ++ path.names.map .ofPiece

/-- The components of a path other than a dot. -/
def steps (path : Path) : List Component :=
  path.components.filter (· ≠ .current)

example : (⟨"./a//../b/."⟩ : Path).components =
    [.current, .normal ['a'], .parent, .normal ['b']] := by decide

theorem ofPiece_ne_root (piece : List Char) : Component.ofPiece piece ≠ .root := by
  unfold Component.ofPiece
  split <;> exact nofun

theorem ofPiece_ne_current (piece : List Char) : Component.ofPiece piece ≠ .current := by
  unfold Component.ofPiece
  split <;> exact nofun

theorem filter_map_ofPiece (pieces : List (List Char)) :
    (pieces.map Component.ofPiece).filter (· ≠ .current) = pieces.map .ofPiece := by
  rw [List.filter_eq_self]
  intro component hmem
  obtain ⟨piece, -, rfl⟩ := List.mem_map.1 hmem
  simpa using ofPiece_ne_current piece

theorem steps_eq (path : Path) :
    path.steps = (if path.isAbsolute then [.root] else []) ++ path.names.map .ofPiece := by
  rw [steps, components, List.filter_append, filter_map_ofPiece, start]
  congr 1
  split
  · rfl
  · split <;> rfl

theorem root_mem_components_iff : .root ∈ path.components ↔ path.isAbsolute = true := by
  have hnames : Component.root ∉ path.names.map .ofPiece := by
    intro hmem
    obtain ⟨piece, -, hpiece⟩ := List.mem_map.1 hmem
    exact ofPiece_ne_root piece hpiece
  rw [components, List.mem_append, or_iff_left hnames, start]
  split
  · simpa
  · split <;> simp_all

/-- Where a path starts depends on its first piece and on whether there is another. -/
theorem start_eq_of_pieces {path' : Path} {rest' : List (List Char)}
    (h : path.pieces = first :: rest) (h' : path'.pieces = first :: rest')
    (hrest : first = [] → (rest = [] ↔ rest' = [])) : path.start = path'.start := by
  have habsolute : path.isAbsolute = path'.isAbsolute := by
    rw [Bool.eq_iff_iff, isAbsolute_iff h, isAbsolute_iff h']
    exact and_congr_right fun hfirst => not_congr (hrest hfirst)
  rw [start, start, habsolute, h, h', List.head?_cons, List.head?_cons]

/-! ## The directory of a path -/

theorem parent?_of_trimEnd {kept : List (List Char)} (h : trimEnd path.pieces = first :: kept)
    (hne : kept ≠ []) :
    path.parent? = some (if trimEnd (first :: kept).dropLast = [[]] then ⟨"/"⟩
      else ofPieces (trimEnd (first :: kept).dropLast)) := by
  obtain ⟨second, kept, rfl⟩ := List.exists_cons_of_ne_nil hne
  simp only [parent?, h]

/-- A name without slashes is in the working directory. -/
theorem parent?_of_bare {path : Path} (hne : path.text ≠ "") (hbare : '/' ∉ path.text.toList) :
    path.parent? = some ⟨""⟩ := by
  have hpieces : path.pieces = [path.text.toList] := List.splitOn_eq_singleton hbare
  have htext : path.text.toList ≠ [] := by
    rwa [Ne, String.toList_eq_nil_iff]
  simp [parent?, hpieces, trimEnd, htext]

theorem components_of_trimEnd_singleton (h : trimEnd path.pieces = [first]) (hne : first ≠ []) :
    path.components = [if first = ['.'] then .current else .ofPiece first] := by
  obtain ⟨first', rest, hpieces⟩ := path.exists_pieces_eq_cons
  obtain ⟨kept, voids, rfl, hvoids, htrim, -⟩ := exists_trimEnd first' rest
  rw [hpieces, htrim] at h
  obtain ⟨rfl, rfl⟩ := List.cons.inj h
  have hrelative : path.isAbsolute = false :=
    eq_false_of_ne_true fun habsolute => hne ((isAbsolute_iff hpieces).1 habsolute).1
  simp only [components, start, names, hrelative, hpieces, List.nil_append,
    List.filter_cons, hvoids]
  by_cases hdot : first' = ['.'] <;> simp [hdot, hne, isVoid]

/-- The beginning of a path, up to a slash, starts where the path does. The root is a case of its
own, since it is the slash itself. -/
theorem components_of_beginning {kept : List (List Char)} (hpieces : path.pieces = first :: rest)
    (hrest : rest ≠ []) (hkept : ∀ piece ∈ first :: kept, piece ∈ path.pieces) :
    (if first :: kept = [[]] then ⟨"/"⟩ else ofPieces (first :: kept) : Path).components =
      path.start ++ ((first :: kept).filter (!isVoid ·)).map .ofPiece := by
  split
  · next hroot =>
    obtain ⟨rfl, rfl⟩ := List.cons.inj hroot
    have habsolute : path.isAbsolute = true := (isAbsolute_iff hpieces).2 ⟨rfl, hrest⟩
    rw [start, habsolute]
    rfl
  · next hroot =>
    have hbeginning : (ofPieces (first :: kept)).pieces = first :: kept :=
      pieces_ofPieces (List.cons_ne_nil _ _) fun piece hmem => slash_not_mem (hkept piece hmem)
    have hstart : (ofPieces (first :: kept)).start = path.start := by
      refine start_eq_of_pieces hbeginning hpieces fun hfirst => iff_of_false ?_ hrest
      rintro rfl
      exact hroot (by rw [hfirst])
    rw [components, hstart, names, hbeginning]

/-- A path that is in a directory has one component more than that: not the root, and a dot only
if there is nothing before it. -/
theorem exists_last_of_parent? (h : path.parent? = some directory) :
    ∃ last, last ≠ .root ∧ (last = .current → directory.components = []) ∧
      path.components = directory.components ++ [last] := by
  obtain ⟨first, rest, hpieces⟩ := path.exists_pieces_eq_cons
  obtain ⟨kept, voids, rfl, hvoids, htrim, hlast⟩ := exists_trimEnd first rest
  rw [← hpieces] at htrim
  obtain rfl | ⟨init, last, rfl⟩ := kept.eq_nil_or_concat'
  · -- only the first piece is left, so the directory is the working directory
    simp only [parent?, htrim, Option.ite_none_left_eq_some, Option.some.injEq] at h
    obtain ⟨hfirst, rfl⟩ := h
    have hempty : (⟨""⟩ : Path).components = [] := rfl
    rw [components_of_trimEnd_singleton htrim hfirst, hempty]
    split
    · exact ⟨.current, nofun, fun _ => rfl, rfl⟩
    · exact ⟨.ofPiece first, ofPiece_ne_root first, fun _ => rfl, rfl⟩
  · rw [parent?_of_trimEnd htrim (by simp), ← List.cons_append, List.dropLast_concat] at h
    obtain ⟨kept, voids', rfl, hvoids', htrim', -⟩ := exists_trimEnd first init
    rw [htrim', Option.some.injEq] at h
    have hnamed : isVoid last = false := by simpa using hlast (by simp)
    have hsplit : path.pieces = (first :: kept) ++ voids' ++ [last] ++ voids := by simp [hpieces]
    have hnames : path.names = (first :: kept).filter (!isVoid ·) ++ [last] := by
      rw [names, hsplit, List.filter_append, List.filter_append, List.filter_append, hvoids,
        hvoids']
      simp [hnamed]
    refine ⟨.ofPiece last, ofPiece_ne_root last,
      fun hcurrent => absurd hcurrent (ofPiece_ne_current last), ?_⟩
    rw [← h, components_of_beginning hpieces (by simp) fun piece hmem => ?_, components, hnames,
      List.map_append, List.append_assoc]
    · rfl
    · rw [hsplit, List.append_assoc, List.append_assoc]
      exact List.mem_append_left _ hmem

theorem components_of_parent? (h : path.parent? = some directory) :
    directory.components = path.components.dropLast := by
  obtain ⟨last, -, -, hcomponents⟩ := exists_last_of_parent? h
  rw [hcomponents, List.dropLast_concat]

theorem isAbsolute_of_parent? (h : path.parent? = some directory) :
    directory.isAbsolute = path.isAbsolute := by
  obtain ⟨last, hlast, -, hcomponents⟩ := exists_last_of_parent? h
  rw [Bool.eq_iff_iff, ← root_mem_components_iff, ← root_mem_components_iff, hcomponents]
  simp [hlast.symm]

theorem steps_of_parent? (h : path.parent? = some directory) :
    directory.steps = path.steps.dropLast := by
  obtain ⟨last, -, hfirst, hcomponents⟩ := exists_last_of_parent? h
  rw [steps, steps, hcomponents, List.filter_append]
  by_cases hcurrent : last = .current
  · rw [hfirst hcurrent, hcurrent]
    rfl
  · have hlast : [last].filter (· ≠ .current) = [last] := by simp [hcurrent]
    rw [hlast, List.dropLast_concat]

/-! ## A path in a directory -/

theorem within_empty (path : Path) : (⟨""⟩ : Path).within path = path := by
  unfold within
  split
  · rfl
  · simp

theorem names_append_slash (front back : String) :
    (⟨front ++ "/" ++ back⟩ : Path).names = (⟨front⟩ : Path).names ++ (⟨back⟩ : Path).names := by
  have hpieces : (⟨front ++ "/" ++ back⟩ : Path).pieces =
      (⟨front⟩ : Path).pieces ++ (⟨back⟩ : Path).pieces := by
    simp only [pieces, String.toList_append, List.append_assoc]
    exact List.splitOn_append_cons_self _ _
  rw [names, hpieces, List.filter_append, names, names]

theorem isAbsolute_append {front : String} (hne : front ≠ "") (back : String) :
    (⟨front ++ back⟩ : Path).isAbsolute = (⟨front⟩ : Path).isAbsolute := by
  have hne : front.toList ≠ [] := by rwa [Ne, String.toList_eq_nil_iff]
  rw [isAbsolute, isAbsolute, String.toList_append, List.head?_append_of_ne_nil _ hne]

/-- A relative path is set apart from the directory by a slash, which may be there already. -/
theorem exists_within_eq (hne : directory.text ≠ "") (h : path.isAbsolute = false) :
    ∃ front, directory.within path = ⟨front ++ "/" ++ path.text⟩ ∧
      (directory = ⟨front⟩ ∨ directory = ⟨front ++ "/"⟩) := by
  have hne : directory.text.toList ≠ [] := by rwa [Ne, String.toList_eq_nil_iff]
  obtain ⟨init, last, htext⟩ := directory.text.toList.eq_nil_or_concat'.resolve_left hne
  rw [within, if_neg (by simp [h]), htext, List.getLast?_concat]
  by_cases hslash : last = '/'
  · have hdirectory : directory.text = String.ofList init ++ "/" := by
      rw [← String.toList_inj, htext, hslash, String.toList_append, String.toList_ofList]
      rfl
    exact ⟨String.ofList init, by simp [hslash, hdirectory], .inr (by rw [← hdirectory])⟩
  · exact ⟨directory.text, by simp [hslash], .inl rfl⟩

theorem isAbsolute_within (h : path.isAbsolute = false) :
    (directory.within path).isAbsolute = directory.isAbsolute := by
  by_cases hne : directory.text = ""
  · obtain rfl : directory = ⟨""⟩ := by rw [← hne]
    rw [within_empty, h]
    rfl
  · obtain ⟨front, hwithin, hdirectory⟩ := exists_within_eq hne h
    rw [hwithin]
    obtain rfl | rfl := hdirectory
    · rw [String.append_assoc, isAbsolute_append hne]
    · rw [isAbsolute_append hne]

theorem names_within (h : path.isAbsolute = false) :
    (directory.within path).names = directory.names ++ path.names := by
  by_cases hne : directory.text = ""
  · obtain rfl : directory = ⟨""⟩ := by rw [← hne]
    rw [within_empty]
    rfl
  · obtain ⟨front, hwithin, hdirectory⟩ := exists_within_eq hne h
    rw [hwithin, names_append_slash]
    obtain rfl | rfl := hdirectory
    · rfl
    · have hslash := names_append_slash front ""
      rw [String.append_empty] at hslash
      rw [hslash]
      simp [names, pieces, isVoid]

theorem steps_within (h : path.isAbsolute = false) :
    (directory.within path).steps = directory.steps ++ path.steps := by
  rw [steps_eq, steps_eq, steps_eq, isAbsolute_within h, names_within h, h, List.map_append]
  simp

end Path

end DnsMatch.Files
