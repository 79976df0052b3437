import BillOfMaterials.Proofs.Document.Unambiguous

/-!
# Lines of a document

A document is read line by line. The lines of a stanza with one-line values are known for what they
are: none of them looks like the title of a package or like a relationship, and every field of one
line is among them.
-/
namespace BillOfMaterials

namespace Text

/-- The parts of a text between its line ends. Behind the last line end there is an empty one. -/
def lines (s : String) : List String := (s.toList.splitOn '\n').map String.ofList

/-- Every line followed by its end. -/
def unlines (ls : List String) : String := String.join (ls.map fun l => l ++ "\n")

theorem unlines_cons (l : String) (ls : List String) :
    unlines (l :: ls) = l ++ "\n" ++ unlines ls := by
  simp [unlines, String.join_cons]

theorem unlines_append (ls ls' : List String) :
    unlines (ls ++ ls') = unlines ls ++ unlines ls' := by
  simp [unlines, String.join_append]

theorem lines_append {l : String} (h : OneLine l) (s : String) :
    lines (l ++ "\n" ++ s) = l :: lines s := by
  have chars : (l ++ "\n" ++ s).toList = l.toList ++ '\n' :: s.toList := by simp
  rw [lines, chars, List.splitOn_append_cons_self_of_not_mem h]
  simp [lines]

/-- Lines that hold no line end are read back from their text. -/
theorem lines_unlines {ls : List String} (h : ∀ l ∈ ls, OneLine l) :
    lines (unlines ls) = ls ++ [""] := by
  induction ls with
  | nil => rfl
  | cons l ls ih =>
    rw [unlines_cons, lines_append (h l (List.mem_cons_self ..)),
      ih fun l member => h l (List.mem_cons_of_mem _ member), List.cons_append]

end Text

/-- The line that opens the stanza of a package, up to the name. -/
def titleMark : String := "##### Package: "

/-- The line that closes an element, up to its owner. -/
def relationMark : String := "Relationship: "

def isTitle (line : String) : Bool := line.startsWith titleMark

def isRelation (line : String) : Bool := line.startsWith relationMark

/-- A line that is neither the title of a package nor a relationship. -/
structure Silent (line : String) : Prop where
  oneLine : OneLine line
  not_title : isTitle line = false
  not_relation : isRelation line = false

theorem silent_of_head {line : String} {c : Char} {rest : List Char} (h : line.toList = c :: rest)
    (oneLine : OneLine line) (mark : c ≠ '#') (letter : c ≠ 'R') : Silent line where
  oneLine := oneLine
  not_title := by
    rw [isTitle, Bool.eq_false_iff, Ne, String.startsWith_string_iff, h, titleMark]
    rintro ⟨rest', same⟩
    simp at same
    exact mark same.1.symm
  not_relation := by
    rw [isRelation, Bool.eq_false_iff, Ne, String.startsWith_string_iff, h, relationMark]
    rintro ⟨rest', same⟩
    simp at same
    exact letter same.1.symm

theorem silent_empty : Silent "" where
  oneLine := by decide
  not_title := by decide
  not_relation := by decide

theorem silent_closing : Silent "</text>" :=
  silent_of_head (c := '<') rfl (by decide) (by decide) (by decide)

theorem isTitle_title (name : String) : isTitle (titleMark ++ name) = true := by
  rw [isTitle, String.startsWith_string_iff, String.toList_append]
  exact List.prefix_append ..

theorem isRelation_title (name : String) : isRelation (titleMark ++ name) = false := by
  rw [isRelation, Bool.eq_false_iff, Ne, String.startsWith_string_iff]
  rintro ⟨rest, same⟩
  simp [titleMark, relationMark] at same

theorem isRelation_relation (rest : String) : isRelation (relationMark ++ rest) = true := by
  rw [isRelation, String.startsWith_string_iff, String.toList_append]
  exact List.prefix_append ..

theorem isTitle_relation (rest : String) : isTitle (relationMark ++ rest) = false := by
  rw [isTitle, Bool.eq_false_iff, Ne, String.startsWith_string_iff]
  rintro ⟨rest, same⟩
  simp [titleMark, relationMark] at same

/-- A field in single lines, which look like nothing else: its value has one line or is a text block
around one. -/
structure Field.Inline (f : Field) : Prop where
  tagged : isTag f.tag = true
  tag : OneLine f.tag
  value : OneLine f.value ∨ ∃ text, OneLine text ∧ f.value = textBlock text

/-- The line of a field, or the first of two if its value is a text block. -/
def Field.head (f : Field) : String := f.tag ++ ": " ++ f.value

theorem Field.Inline.silent {f : Field} (h : f.Inline) {text : String} (line : OneLine text) :
    Silent (f.tag ++ ": " ++ text) := by
  obtain ⟨c, rest, chars, mark, letter⟩ := start_of_isTag h.tagged
  have start : (f.tag ++ ": " ++ text).toList = c :: (rest ++ ':' :: ' ' :: text.toList) := by
    simp [chars]
  exact silent_of_head start ((h.tag.append (by decide)).append line) mark letter

theorem Field.Inline.lines {f : Field} (h : f.Inline) :
    ∃ ls, f.line = Text.unlines ls ∧ (∀ l ∈ ls, Silent l) ∧ (OneLine f.value → f.head ∈ ls) := by
  rcases h.value with line | ⟨text, line, block⟩
  · refine ⟨[f.head], by simp [Field.line, head, Text.unlines, String.join_cons], ?_, by simp⟩
    simpa [head] using h.silent line
  · refine ⟨[f.tag ++ ": " ++ ("<text>" ++ text), "</text>"], ?_, ?_, ?_⟩
    · rw [Field.line, block]
      simp [textBlock, Text.unlines, String.join_cons, String.append_assoc]
    · have first := h.silent ((show OneLine "<text>" by decide).append line)
      simpa using ⟨first, silent_closing⟩
    · intro closed
      rw [block, OneLine, toList_textBlock] at closed
      simp at closed

/-- The lines of a stanza of inline fields. -/
theorem Stanza.lines_of_inline {s : Stanza} (h : ∀ f ∈ s, f.Inline) :
    ∃ ls, s.render = Text.unlines ls ∧ (∀ l ∈ ls, Silent l) ∧
      ∀ f ∈ s, OneLine f.value → f.head ∈ ls := by
  suffices ∃ ls, String.join (s.map Field.line) = Text.unlines ls ∧ (∀ l ∈ ls, Silent l) ∧
      ∀ f ∈ s, OneLine f.value → f.head ∈ ls by
    obtain ⟨ls, text, silent, shown⟩ := this
    refine ⟨ls ++ [""], ?_, ?_, fun f member line => List.mem_append_left _ (shown f member line)⟩
    · simp [render, text, Text.unlines, String.join_cons]
    · simpa [or_imp, forall_and] using ⟨silent, silent_empty⟩
  induction s with
  | nil => exact ⟨[], rfl, by simp, by simp⟩
  | cons f s ih =>
    obtain ⟨first, text, silent, shown⟩ := (h f (List.mem_cons_self ..)).lines
    obtain ⟨others, texts, silents, shows⟩ := ih fun g member => h g (List.mem_cons_of_mem _ member)
    refine ⟨first ++ others, ?_, ?_, ?_⟩
    · rw [List.map_cons, String.join_cons, text, texts, Text.unlines_append]
    · intro l member
      exact (List.mem_append.mp member).elim (silent l) (silents l)
    · intro g member line
      rw [List.mem_append]
      rcases List.mem_cons.mp member with rfl | later
      · exact .inl (shown line)
      · exact .inr (shows g later line)

theorem File.oneLine_tag {f : File} {g : Field} (h : g ∈ f.stanza) : OneLine g.tag := by
  simp [stanza, checksumFields, Stanza.pushOr, Stanza.pushTextOr] at h
  rcases h with ((((⟨-, rfl⟩ | ⟨-, rfl⟩) | ⟨_, _, -, rfl⟩) | rfl) | rfl) | rfl
  all_goals
    dsimp only
    decide

theorem Package.oneLine_tag {info : PackageInfo} {v : Verification} {g : Field}
    (h : g ∈ fields info v) : OneLine g.tag := by
  simp [fields, checksumFields, Stanza.pushOr, Stanza.pushTextOr] at h
  rcases h with ((((((((((⟨-, rfl⟩ | ⟨-, rfl⟩) | ⟨_, _, -, rfl⟩) | rfl) | rfl) | ⟨-, rfl⟩) | rfl) |
    ⟨-, rfl⟩) | ⟨_, -, rfl⟩) | ⟨-, rfl⟩) | rfl) | rfl
  all_goals
    dsimp only
    decide

theorem Stanza.Plain.inline_pushTextOr {last value : String} {front : Stanza}
    {absent : Placeholder} (plain : Plain last front) (tagged : isTag last = true)
    (line : OneLine value) (tags : ∀ f ∈ front.pushTextOr last value absent, OneLine f.tag) :
    ∀ f ∈ front.pushTextOr last value absent, f.Inline := by
  intro f member
  have tag := tags f member
  rw [pushTextOr, mem_push] at member
  rcases member with inside | rfl
  · obtain ⟨inner, single⟩ := plain f inside
    exact ⟨inner.2, tag, .inl single⟩
  · refine ⟨tagged, tag, ?_⟩
    dsimp only
    split
    · exact .inl absent.oneLine_text
    · exact .inr ⟨value, line, rfl⟩

/-- Everything that the stanza of the file shows has one line. -/
def File.Inline (f : File) : Prop := (∀ s ∈ f.strings, OneLine s) ∧ OneLine f.copyrightText

/-- Everything that the stanza of the package shows has one line, what its files amount to aside. -/
def PackageInfo.Inline (info : PackageInfo) : Prop :=
  (∀ s ∈ info.strings, OneLine s) ∧ OneLine info.copyrightText

instance (f : File) : Decidable f.Inline := inferInstanceAs (Decidable (_ ∧ _))

instance (info : PackageInfo) : Decidable info.Inline := inferInstanceAs (Decidable (_ ∧ _))

/-- Everything that a document of the tree shows has one line. -/
def Package.Inline (p : Package) : Prop :=
  ∀ q ∈ p.preorder, q.info.Inline ∧ ∀ f ∈ q.files.values, f.Inline

instance (p : Package) : Decidable p.Inline :=
  inferInstanceAs (Decidable (∀ q ∈ p.preorder, q.info.Inline ∧ ∀ f ∈ q.files.values, f.Inline))

theorem File.Inline.fields {f : File} (h : f.Inline) : ∀ g ∈ f.stanza, g.Inline := by
  obtain ⟨front, plain, same⟩ := f.plain_stanza h.1
  have tags : ∀ g ∈ f.stanza, OneLine g.tag := fun g member => f.oneLine_tag member
  rw [same] at tags ⊢
  exact plain.inline_pushTextOr (by decide) h.2 tags

theorem PackageInfo.Inline.fields {info : PackageInfo} {v : Verification} (h : info.Inline)
    (hv : v.Legible) : ∀ g ∈ Package.fields info v, g.Inline := by
  obtain ⟨front, plain, same⟩ := Package.plain_fields h.1 hv
  have tags : ∀ g ∈ Package.fields info v, OneLine g.tag := fun g member =>
    Package.oneLine_tag member
  rw [same] at tags ⊢
  exact plain.inline_pushTextOr (by decide) h.2 tags

/-- A file that has an identifier declares it in a line of its stanza. -/
theorem File.Inline.lines {f : File} (h : f.Inline) :
    ∃ ls, f.render = Text.unlines ls ∧ (∀ l ∈ ls, Silent l) ∧
      (f.id ≠ "" → "SPDXID: " ++ f.id ∈ ls) := by
  obtain ⟨ls, text, silent, shown⟩ := Stanza.lines_of_inline h.fields
  refine ⟨ls, text, silent, fun named => shown ⟨"SPDXID", f.id⟩ ?_ (h.1 f.id (by simp [strings]))⟩
  simp [stanza, Stanza.pushOr, Stanza.pushTextOr, named]

/-- A package that has an identifier declares it in a line of its stanza. -/
theorem PackageInfo.Inline.lines {info : PackageInfo} {v : Verification} (h : info.Inline)
    (hv : v.Legible) :
    ∃ ls, (Package.fields info v).render = Text.unlines ls ∧ (∀ l ∈ ls, Silent l) ∧
      (info.id ≠ "" → "SPDXID: " ++ info.id ∈ ls) := by
  obtain ⟨ls, text, silent, shown⟩ := Stanza.lines_of_inline (h.fields hv)
  refine ⟨ls, text, silent, fun named =>
    shown ⟨"SPDXID", info.id⟩ ?_ (h.1 info.id (by simp [strings]))⟩
  simp [Package.fields, Stanza.pushOr, Stanza.pushTextOr, named]

end BillOfMaterials
