import BillOfMaterials.Proofs.Document.Outline

/-!
# Reading outlines back

An outline can be read off the front of its text. The first character tells where each part ends: a
header begins with a number sign, a relationship with the letter of its tag, and the stanza of a
file with neither.
-/
namespace BillOfMaterials

mutual

def Outline.Legible : Outline → Prop
  | ⟨name, stanza, files, children⟩ =>
    OneLine name ∧ stanza.Legible "PackageCopyrightText"
      ∧ (∀ f ∈ files, f.Legible "FileCopyrightText") ∧ children.Legible

def Outlines.Legible : Outlines → Prop
  | .nil => True
  | .cons _ child rest => child.Legible ∧ rest.Legible

end

/-- What may follow the children of a package: a relationship, or nothing. -/
def Closes (x : List Char) : Prop := ∀ c ∈ x.head?, c = 'R'

/-- What may follow the files of a package: a header, a relationship, or nothing. -/
def EndsFiles (x : List Char) : Prop := ∀ c ∈ x.head?, c = '#' ∨ c = 'R'

variable {x y : List Char}

theorem header_split {a b : String} (ha : OneLine a) (hb : OneLine b)
    (h : (header ("Package: " ++ a)).toList ++ x = (header ("Package: " ++ b)).toList ++ y) :
    a = b ∧ x = y := by
  have chars (name : String) (z : List Char) : (header ("Package: " ++ name)).toList ++ z =
      "##### Package: ".toList ++ (name.toList ++ '\n' :: '\n' :: z) := by
    simp [header]
  rw [chars, chars] at h
  have parts := ha.split hb (List.append_cancel_left h)
  exact ⟨parts.1, (List.cons.inj parts.2).2⟩

namespace Relationship

variable {r r' : Relationship} {owner element : String}

theorem toList_line_append (r : Relationship) (owner element : String) (x : List Char) :
    (r.line owner element).toList ++ x = ("Relationship: " ++ owner ++ " ").toList ++
      (r.name.toList ++ ((" " ++ element ++ "\n\n").toList ++ x)) := by
  unfold line
  simp only [String.toList_append, List.append_assoc]

theorem line_split (h : (r.line owner element).toList ++ x = (r'.line owner element).toList ++ y) :
    r = r' ∧ x = y := by
  have same : r = r' := by
    rw [toList_line_append, toList_line_append] at h
    have names := List.append_cancel_left h
    cases r <;> cases r'
    · rfl
    · simp [name] at names
    · simp [name] at names
    · rfl
  subst same
  exact ⟨rfl, List.append_cancel_left h⟩

theorem closes_line_append (r : Relationship) (owner element : String) (x : List Char) :
    Closes ((r.line owner element).toList ++ x) := by
  intro c head
  rw [toList_line_append] at head
  simp at head
  exact head.symm

end Relationship

theorem Closes.endsFiles (h : Closes x) : EndsFiles x := by
  intro c head
  exact .inr (h c head)

theorem toList_filesText_nil (owner : String) : (filesText owner []).toList = [] := by
  simp [filesText, String.join]

theorem toList_filesText_cons_append (owner : String) (f : Stanza) (files : List Stanza) :
    (filesText owner (f :: files)).toList ++ x = f.render.toList ++
      ((Relationship.contains.line owner f.declaredId).toList
        ++ ((filesText owner files).toList ++ x)) := by
  simp [filesText, String.join_cons]

theorem Stanza.Legible.not_endsFiles {last : String} {s : Stanza} (tagged : isTag last = true)
    (hs : s.Legible last) : ¬ EndsFiles (s.render.toList ++ x) := by
  intro ends
  obtain ⟨c, rest, text, mark, letter⟩ := hs.render_start tagged
  rw [text] at ends
  cases ends c rfl with
  | inl same => exact mark same
  | inr same => exact letter same

/-- Files end where no stanza of a file begins. -/
theorem filesText_split {owner : String} {files files' : List Stanza}
    (hs : ∀ f ∈ files, f.Legible "FileCopyrightText")
    (ht : ∀ f ∈ files', f.Legible "FileCopyrightText") (hx : EndsFiles x) (hy : EndsFiles y)
    (h : (filesText owner files).toList ++ x = (filesText owner files').toList ++ y) :
    files = files' ∧ x = y := by
  have tagged : isTag "FileCopyrightText" = true := by decide
  induction files generalizing files' with
  | nil =>
    cases files' with
    | nil => exact ⟨rfl, List.append_cancel_left h⟩
    | cons g files' =>
      rw [toList_filesText_nil, toList_filesText_cons_append, List.nil_append] at h
      rw [h] at hx
      exact ((ht g (List.mem_cons_self ..)).not_endsFiles tagged hx).elim
  | cons f files ih =>
    cases files' with
    | nil =>
      rw [toList_filesText_nil, toList_filesText_cons_append, List.nil_append] at h
      rw [← h] at hy
      exact ((hs f (List.mem_cons_self ..)).not_endsFiles tagged hy).elim
    | cons g files' =>
      rw [toList_filesText_cons_append, toList_filesText_cons_append] at h
      obtain ⟨rfl, afterStanza⟩ :=
        (hs f (List.mem_cons_self ..)).split tagged (ht g (List.mem_cons_self ..)) h
      obtain ⟨rfl, behind⟩ := ih (fun f member => hs f (List.mem_cons_of_mem _ member))
        (fun f member => ht f (List.mem_cons_of_mem _ member))
        (List.append_cancel_left afterStanza)
      exact ⟨rfl, behind⟩

theorem Outline.toList_text_append (o : Outline) (x : List Char) :
    o.text.toList ++ x = (header ("Package: " ++ o.name)).toList ++ (o.stanza.render.toList
      ++ ((filesText o.stanza.declaredId o.files).toList
        ++ ((o.children.text o.stanza.declaredId).toList ++ x))) := by
  cases o
  simp [text]

theorem Outlines.toList_text_cons_append (owner : String) (r : Relationship) (child : Outline)
    (rest : Outlines) (x : List Char) :
    ((cons r child rest).text owner).toList ++ x = child.text.toList
      ++ ((r.line owner child.stanza.declaredId).toList ++ ((rest.text owner).toList ++ x)) := by
  simp [text]

theorem Outline.not_closes (o : Outline) : ¬ Closes (o.text.toList ++ x) := by
  intro closes
  rw [toList_text_append] at closes
  have mark := closes '#' (by simp [header])
  contradiction

theorem Outlines.endsFiles_text_append (owner : String) (c : Outlines) (hx : Closes x) :
    EndsFiles ((c.text owner).toList ++ x) := by
  cases c with
  | nil => simpa [text] using hx.endsFiles
  | cons r child rest =>
    intro c head
    rw [toList_text_cons_append, Outline.toList_text_append] at head
    simp [header] at head
    exact .inl head.symm

mutual

theorem Outline.split : (o o' : Outline) → o.Legible → o'.Legible → {x y : List Char} →
    Closes x → Closes y → o.text.toList ++ x = o'.text.toList ++ y → o = o' ∧ x = y
  | ⟨name, stanza, files, children⟩, ⟨name', stanza', files', children'⟩, ho, ho', x, y, hx, hy,
      h => by
    rw [Outline.Legible] at ho ho'
    obtain ⟨line, legible, filesLegible, inner⟩ := ho
    obtain ⟨line', legible', filesLegible', inner'⟩ := ho'
    rw [Outline.toList_text_append, Outline.toList_text_append] at h
    dsimp only at h
    obtain ⟨rfl, afterHeader⟩ := header_split line line' h
    obtain ⟨rfl, afterStanza⟩ := legible.split (by decide) legible' afterHeader
    obtain ⟨rfl, afterFiles⟩ := filesText_split filesLegible filesLegible'
      (children.endsFiles_text_append _ hx) (children'.endsFiles_text_append _ hy) afterStanza
    obtain ⟨rfl, behind⟩ := children.split children' inner inner' hx hy afterFiles
    exact ⟨rfl, behind⟩

theorem Outlines.split : (c c' : Outlines) → c.Legible → c'.Legible → {owner : String} →
    {x y : List Char} → Closes x → Closes y →
      (c.text owner).toList ++ x = (c'.text owner).toList ++ y → c = c' ∧ x = y
  | .nil, .nil, _, _, owner, x, y, _, _, h => ⟨rfl, List.append_cancel_left h⟩
  | .nil, .cons r' child' rest', _, _, owner, x, y, hx, _, h => by
    rw [Outlines.toList_text_cons_append] at h
    rw [Outlines.text, String.toList_empty, List.nil_append] at h
    rw [h] at hx
    exact (child'.not_closes hx).elim
  | .cons r child rest, .nil, _, _, owner, x, y, _, hy, h => by
    rw [Outlines.toList_text_cons_append] at h
    rw [Outlines.text, String.toList_empty, List.nil_append] at h
    rw [← h] at hy
    exact (child.not_closes hy).elim
  | .cons r child rest, .cons r' child' rest', hc, hc', owner, x, y, hx, hy, h => by
    rw [Outlines.Legible] at hc hc'
    rw [Outlines.toList_text_cons_append, Outlines.toList_text_cons_append] at h
    obtain ⟨rfl, afterChild⟩ := child.split child' hc.1 hc'.1 (r.closes_line_append _ _ _)
      (r'.closes_line_append _ _ _) h
    obtain ⟨rfl, afterLine⟩ := Relationship.line_split afterChild
    obtain ⟨rfl, behind⟩ := rest.split rest' hc.2 hc'.2 hx hy afterLine
    exact ⟨rfl, behind⟩

end
end BillOfMaterials
