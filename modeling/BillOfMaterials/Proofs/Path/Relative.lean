import BillOfMaterials.Options
import BillOfMaterials.Proofs.Path.Stripping

/-!
# Paths told from the working directory

A path is told from the working directory by whole components: where those of the directory come
first, the part of the text behind them is told, and otherwise the whole text, with a warning. How
the directory is written does not matter, as long as its components stay the same.
-/
namespace BillOfMaterials

open Text.Utf8

namespace Path

section Texts

theorem intercalate_cons_eq {α : Type} (sep a : List α) (l : List (List α)) :
    sep.intercalate (a :: l) = a ++ l.flatMap (sep ++ ·) := by
  induction l generalizing a with
  | nil => rw [List.intercalate_singleton, List.flatMap_nil, List.append_nil]
  | cons b l ih => rw [List.intercalate_cons_cons, ih, List.flatMap_cons, List.append_assoc,
      List.append_assoc]

/-- Consecutive parts make up a part of the whole. -/
theorem infix_intercalate {α : Type} (sep : List α) {l l' : List (List α)} (h : l <:+: l') :
    sep.intercalate l <:+: sep.intercalate l' := by
  obtain ⟨front, back, rfl⟩ := h
  cases l with
  | nil => exact List.nil_infix
  | cons a l =>
    rw [intercalate_cons_eq]
    cases front with
    | nil =>
      refine ⟨[], back.flatMap (sep ++ ·), ?_⟩
      simp [intercalate_cons_eq]
    | cons b front =>
      refine ⟨b ++ front.flatMap (sep ++ ·) ++ sep, back.flatMap (sep ++ ·), ?_⟩
      simp [intercalate_cons_eq]

theorem encode_intercalate (l : List String) :
    encode ("/".intercalate l) = join (l.map encode) := by
  induction l with
  | nil => rfl
  | cons s l ih =>
    cases l with
    | nil => simp [join]
    | cons t l =>
      have mark : encode "/" = [slash] := rfl
      rw [String.intercalate_cons_cons, encode_append, encode_append, ih, mark, join, join,
        List.map_cons, List.map_cons, List.map_cons, List.intercalate_cons_cons]

theorem intercalate_parts (text : String) :
    ['/'].intercalate ((parts text).map String.toList) = text.toList := by
  have whole : (parts text).map String.toList = text.toList.splitOn '/' := by
    simp [parts, Function.comp_def]
  rw [whole, List.intercalate_splitOn]

/-- Behind the front of a text there is text. -/
theorem exists_text_front (text : String) :
    ∃ body : String, (front (encode text)).2 = encode body ∧ body.toList <:+ text.toList := by
  have opening := fronted (encode text)
  generalize same : encode text = bytes at opening
  generalize front bytes = opened at opening
  cases opening with
  | empty => exact ⟨"", rfl, List.nil_suffix⟩
  | root => exact exists_tail_of_encode_eq_cons same (by decide)
  | current => exact exists_tail_of_encode_eq_cons same (by decide)
  | name => exact ⟨text, same.symm, List.suffix_rfl⟩

/-- What is left of a text is a part of the text. -/
theorem exists_text_rest? {p : String} {base r : Path} (h : (ofString p).rest? base = some r) :
    ∃ text : String, r = ofString text ∧ text.toList <:+: p.toList := by
  obtain ⟨taken, rest, split, -, rfl⟩ := rest?_eq_some h
  obtain ⟨body, written, behind⟩ := exists_text_front p
  have whole : (parts body).map encode = taken ++ rest := by
    rw [← segments_encode, ← written, ← split, ofString]
  have inside : trimmed rest <:+: (parts body).map encode :=
    (infix_trimmed rest).trans (whole ▸ (List.suffix_append taken rest).isInfix)
  obtain ⟨l, among, shown⟩ := List.infix_map_iff.mp inside
  refine ⟨"/".intercalate l, ?_, ?_⟩
  · rw [ofString, encode_intercalate, shown]
  · rw [String.toList_intercalate]
    have within := infix_intercalate ['/'] (among.map String.toList)
    rw [intercalate_parts] at within
    exact within.trans behind.isInfix

/-- What is left of a text has no slash on the outside. -/
theorem ends_of_ofString {text : String} (first : (ofString text).bytes.head? ≠ some slash)
    (last : (ofString text).bytes.getLast? ≠ some slash) :
    text.toList.head? ≠ some '/' ∧ text.toList.getLast? ≠ some '/' := by
  rw [ofString, encode] at first last
  constructor
  · intro outside
    obtain ⟨chars, split⟩ := List.head?_eq_some_iff.mp outside
    rw [split] at first
    exact first rfl
  · intro outside
    obtain ⟨chars, split⟩ := List.getLast?_eq_some_iff.mp outside
    rw [split, List.flatMap_append] at last
    exact last List.getLast?_concat

theorem display_ofString (text : String) : (ofString text).display = text := decodeLossy_encode text

theorem encode_eq_nil_iff {text : String} : encode text = [] ↔ text = "" := by
  have none : encode "" = [] := rfl
  rw [← none, encode_inj]

theorem isEmpty_ofString_iff {text : String} : (ofString text).isEmpty = true ↔ text = "" := by
  rw [isEmpty, ofString, List.isEmpty_iff, encode_eq_nil_iff]

theorem components_ofString_eq_nil_iff {text : String} :
    (ofString text).components = [] ↔ text = "" := by
  rw [components_eq_nil_iff, ofString, encode_eq_nil_iff]

end Texts

/-- `r` is the part of the text `p` behind the components of `w`. -/
structure Remains (w p r : String) : Prop where
  components : (ofString w).components ++ (ofString r).components = (ofString p).components
  inside : r.toList <:+: p.toList
  first : r.toList.head? ≠ some '/'
  last : r.toList.getLast? ≠ some '/'

theorem exists_remains {w p : String} (dir : w ≠ "")
    (first : (ofString w).components <+: (ofString p).components) :
    ∃ r, (ofString p).rest? (ofString w) = some (ofString r) ∧ Remains w p r := by
  obtain ⟨_, left⟩ := exists_rest? (components_ofString_eq_nil_iff.not.mpr dir) first
  obtain ⟨r, rfl, inside⟩ := exists_text_rest? left
  obtain ⟨first, last⟩ := ends_of_ofString (ends_rest? left).1 (ends_rest? left).2
  exact ⟨r, left, components_rest? left, inside, first, last⟩

/-- Only the components of the other path decide what is left. -/
theorem rest?_congr {p base base' : Path} (same : base.components = base'.components) :
    p.rest? base = p.rest? base' := by
  rw [rest?, rest?, same]

/-- Doubled slashes, a `.` between slashes and a slash at the end are no components. -/
theorem components_of_respelling (u v : String) :
    (ofString (u ++ "//" ++ v)).components = (ofString (u ++ "/" ++ v)).components ∧
    (ofString (u ++ "/./" ++ v)).components = (ofString (u ++ "/" ++ v)).components ∧
    (u ≠ "" → (ofString (u ++ "/")).components = (ofString u).components) := by
  obtain ⟨lead, whole, behind⟩ := components_append_slash (encode u)
  have spelt (mark : String) : ofString (u ++ mark) = ⟨encode u ++ encode mark⟩ := by
    rw [ofString, encode_append]
  have single : encode ("/" ++ v) = slash :: encode v := encode_append "/" v
  have double : encode ("//" ++ v) = slash :: slash :: encode v := encode_append "//" v
  have dotted : encode ("/./" ++ v) = slash :: dot :: slash :: encode v := encode_append "/./" v
  have ending : encode "/" = slash :: [] := rfl
  have blank : segments (dot :: slash :: encode v) = [dot] :: segments (encode v) :=
    segments_append_slash [dot] (encode v)
  have empty : segments (slash :: encode v) = [] :: segments (encode v) :=
    segments_append_slash [] (encode v)
  refine ⟨?_, ?_, fun dir => ?_⟩
  · rw [String.append_assoc, String.append_assoc, spelt, spelt, single, double, behind, behind,
      empty, componentsOf_cons_of_blank rfl]
  · rw [String.append_assoc, String.append_assoc, spelt, spelt, single, dotted, behind, behind,
      blank, componentsOf_cons_of_blank rfl]
  · rw [spelt, ending, behind, ofString, whole (encode_eq_nil_iff.not.mpr dir)]
    exact List.append_nil lead

end Path

namespace Options

section Paths

variable (o : Options) {p : Path}

theorem relativePath_of_rest {r : Path} (dir : o.workDir.components ≠ [])
    (left : p.rest? o.workDir = some r) : o.relativePath p = (r.display, []) := by
  rw [Ne, Path.components_eq_nil_iff, ← List.isEmpty_iff] at dir
  rw [relativePath, Path.isEmpty, if_neg dir, left]

theorem relativePath_of_outside (dir : o.workDir.components ≠ [])
    (outside : ¬ o.workDir.components <+: p.components) :
    o.relativePath p = (p.display, [.outsideWorkDir p.display o.workDir.display]) := by
  rw [Ne, Path.components_eq_nil_iff, ← List.isEmpty_iff] at dir
  rw [relativePath, Path.isEmpty, if_neg dir]
  cases left : p.rest? o.workDir with
  | none => rfl
  | some r => exact absurd ⟨_, Path.components_rest? left⟩ outside

end Paths

/-- How the path `p` is told from the working directory `w`, both given as texts. -/
def tell (w p : String) : String × List Event := (⟨.ofString w⟩ : Options).relativePath (.ofString p)

variable {w w' p : String}

theorem tell_of_noDir (p : String) : tell "" p = (p, []) := by
  rw [tell, relativePath, if_pos (Path.isEmpty_ofString_iff.mpr rfl), Path.display_ofString]

theorem tell_of_rest {r : String} (dir : w ≠ "")
    (left : (Path.ofString p).rest? (.ofString w) = some (.ofString r)) : tell w p = (r, []) := by
  have told := relativePath_of_rest ⟨.ofString w⟩
    (Path.components_ofString_eq_nil_iff.not.mpr dir) left
  rw [tell, told, Path.display_ofString]

theorem tell_of_outside (dir : w ≠ "")
    (outside : ¬ (Path.ofString w).components <+: (Path.ofString p).components) :
    tell w p = (p, [.outsideWorkDir p w]) := by
  have told := relativePath_of_outside ⟨.ofString w⟩
    (Path.components_ofString_eq_nil_iff.not.mpr dir) outside
  rw [tell, told, Path.display_ofString, Path.display_ofString]

/-- Directories with the same components are alike. -/
theorem tell_fst_congr (same : (Path.ofString w).components = (Path.ofString w').components) :
    (tell w p).1 = (tell w' p).1 := by
  have blank : w = "" ↔ w' = "" := by
    rw [← Path.components_ofString_eq_nil_iff, same, Path.components_ofString_eq_nil_iff]
  by_cases dir : w = ""
  · rw [dir, blank.mp dir]
  · rw [tell, tell, relativePath, relativePath, if_neg (Path.isEmpty_ofString_iff.not.mpr dir),
      if_neg (Path.isEmpty_ofString_iff.not.mpr (blank.not.mp dir)), Path.rest?_congr same]
    cases (Path.ofString p).rest? (.ofString w') <;> rfl

/-- The text names a component, wherever it stands behind a slash. -/
def IsName (text : String) : Prop := text ≠ "" ∧ text ≠ "." ∧ '/' ∉ text.toList

theorem IsName.spelt {text : String} (named : IsName text) :
    Path.isBlank (encode text) = false ∧ Path.slash ∉ encode text := by
  obtain ⟨nonempty, notDot, apart⟩ := named
  have dots : encode "." = [Path.dot] := rfl
  rw [Path.isBlank_eq_false_iff, ← dots, Ne, Ne, encode_inj, Path.encode_eq_nil_iff]
  refine ⟨⟨nonempty, notDot⟩, ?_⟩
  rw [encode, List.mem_flatMap]
  rintro ⟨c, member, inside⟩
  exact Path.slash_notMem_encode (fun same => apart (same ▸ member)) inside

theorem head_encode_ne_slash {more : String} (longer : more.toList.head?.getD '/' ≠ '/') :
    (encode more).head?.getD Path.slash ≠ Path.slash := by
  rw [encode]
  cases split : more.toList with
  | nil =>
    rw [split] at longer
    exact absurd rfl longer
  | cons c chars =>
    rw [split] at longer
    have apart : Path.slash ∉ String.utf8EncodeChar c := Path.slash_notMem_encode longer
    have spelt := spells_encode c
    rw [List.flatMap_cons]
    cases bytes : String.utf8EncodeChar c with
    | nil =>
      rw [bytes] at spelt
      cases spelt
    | cons b more =>
      rw [bytes, List.mem_cons, not_or] at apart
      exact Ne.symm apart.1

/-- A directory is no directory of a path that goes on with a longer name. -/
theorem tell_of_longer_name {dir name more : String} (isDir : dir = "" ∨ ∃ d, dir = d ++ "/")
    (named : IsName name) (longer : more.toList.head?.getD '/' ≠ '/') :
    tell (dir ++ name) (dir ++ name ++ more) =
      (dir ++ name ++ more, [.outsideWorkDir (dir ++ name ++ more) (dir ++ name)]) := by
  have written : dir ++ name ≠ "" := by
    rw [Ne, String.append_eq_empty_iff]
    exact fun none => named.1 none.2
  have isDir : encode dir = [] ∨ ∃ a, encode dir = a ++ [Path.slash] := by
    rcases isDir with rfl | ⟨d, rfl⟩
    · exact .inl rfl
    · exact .inr ⟨encode d, encode_append d "/"⟩
  apply tell_of_outside written
  rw [Path.ofString, Path.ofString, String.append_assoc, encode_append, encode_append,
    encode_append]
  exact Path.not_prefix_of_longer_name isDir named.spelt.1 named.spelt.2
    (head_encode_ne_slash longer)

/-- Without a working directory a path is told as it is. With one, whole components come off the
front of a path that begins with those of the directory, nothing else is lost, and there is no
warning; any other path is told as it is, with one warning. A directory that is the beginning of a
text but ends inside a name does not count, nor does it count how a directory is written. -/
theorem tell_strips_whole_components (w p : String) :
    (w = "" → tell w p = (p, [])) ∧
    (w ≠ "" → (Path.ofString w).components <+: (Path.ofString p).components →
      ∃ r, tell w p = (r, []) ∧ Path.Remains w p r) ∧
    (w ≠ "" → ¬ (Path.ofString w).components <+: (Path.ofString p).components →
      tell w p = (p, [.outsideWorkDir p w]) ∧ (tell w p).2.map Event.level = [.warn]) ∧
    (∀ dir name more : String, (dir = "" ∨ ∃ d, dir = d ++ "/") → IsName name →
      more.toList.head?.getD '/' ≠ '/' →
        tell (dir ++ name) (dir ++ name ++ more) =
          (dir ++ name ++ more, [.outsideWorkDir (dir ++ name ++ more) (dir ++ name)])) ∧
    (∀ w', (Path.ofString w).components = (Path.ofString w').components →
      (tell w p).1 = (tell w' p).1) ∧
    ∀ u v,
      (Path.ofString (u ++ "//" ++ v)).components = (Path.ofString (u ++ "/" ++ v)).components ∧
      (Path.ofString (u ++ "/./" ++ v)).components = (Path.ofString (u ++ "/" ++ v)).components ∧
      (u ≠ "" → (Path.ofString (u ++ "/")).components = (Path.ofString u).components) := by
  refine ⟨?_, fun dir first => ?_, fun dir outside => ?_, fun _ _ _ => tell_of_longer_name,
    fun _ => tell_fst_congr, Path.components_of_respelling⟩
  · rintro rfl
    exact tell_of_noDir p
  · obtain ⟨r, left, remains⟩ := Path.exists_remains dir first
    exact ⟨r, tell_of_rest dir left, remains⟩
  · rw [tell_of_outside dir outside]
    exact ⟨rfl, rfl⟩

/-- Slashes and dots inside of what is left stay as they are written. -/
theorem tell_strips_whole_components_of_build :
    let w := "/build//./out/"
    let p := "/build/./out//bin/.././/x/./"
    tell w p = ("bin/.././/x", []) ∧ Path.Remains w p "bin/.././/x" ∧
      tell "/build" "/buildx/a" =
        ("/buildx/a", [.outsideWorkDir "/buildx/a" "/build"]) ∧
      (tell "/build/out" p).1 = "bin/.././/x" := by
  intro w p
  obtain ⟨-, strips, -, longer, alike, -⟩ := tell_strips_whole_components w p
  obtain ⟨r, told, remains⟩ := strips (by decide) (by decide +kernel)
  have left : tell w p = ("bin/.././/x", []) := by decide +kernel
  have same : r = "bin/.././/x" := by
    rw [left] at told
    exact (congrArg Prod.fst told).symm
  refine ⟨left, same ▸ remains, ?_, ?_⟩
  · exact longer "/" "build" "x/a" (.inr ⟨"", rfl⟩) ⟨by decide, by decide, by decide⟩ (by decide)
  · rw [← alike "/build/out" (by decide +kernel), left]

end Options

end BillOfMaterials
