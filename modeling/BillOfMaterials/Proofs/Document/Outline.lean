import BillOfMaterials.Proofs.Document.Fields
import BillOfMaterials.Proofs.Document.Legible
import BillOfMaterials.Proofs.Rendering.Result

/-!
# Outlines

What a document shows of a tree: the name and the stanza of every package, the stanzas of its files,
and its children in their order, each with its relationship. The text of an outline takes the
identifiers from the stanzas. A successful rendering leaves a tree whose outline has the rendered
text.
-/
namespace BillOfMaterials

mutual

structure Outline where
  name : String
  stanza : Stanza
  files : List Stanza
  children : Outlines

inductive Outlines where
  | nil
  | cons (r : Relationship) (child : Outline) (rest : Outlines)

end

/-- The stanzas of files, each closed by its relationship to `owner`. -/
def filesText (owner : String) (files : List Stanza) : String :=
  String.join (files.map fun f => f.render ++ Relationship.contains.line owner f.declaredId)

mutual

def Outline.text : Outline → String
  | ⟨name, stanza, files, children⟩ =>
    header ("Package: " ++ name) ++ stanza.render ++ filesText stanza.declaredId files
      ++ children.text stanza.declaredId

def Outlines.text (owner : String) : Outlines → String
  | .nil => ""
  | .cons r child rest => child.text ++ r.line owner child.stanza.declaredId ++ rest.text owner

end

mutual

def Package.outline : Package → Outline
  | ⟨info, verification, files, packages, dependencies, _⟩ =>
    ⟨info.name, Package.fields info verification, files.values.map File.stanza,
      packages.outline .contains (dependencies.outline .dependsOn .nil)⟩

/-- The children under a relationship, in front of `others`. -/
def Children.outline {floor : Option String} (r : Relationship) (others : Outlines) :
    Children floor → Outlines
  | .nil => others
  | .cons _ _ child rest => .cons r child.outline (rest.outline r others)

end

theorem filesText_stanza (owner : String) (files : List File) :
    filesText owner (files.map File.stanza) = Package.renderFiles owner files := by
  have entry (f : File) : f.stanza.render ++ Relationship.contains.line owner f.stanza.declaredId =
      f.render ++ Relationship.contains.line owner f.id := by
    rw [f.declaredId_stanza, File.render]
  rw [filesText, Package.renderFiles, List.map_map]
  congr 1
  exact List.map_congr_left fun f _ => entry f

theorem Package.declaredId_outline (p : Package) : p.outline.stanza.declaredId = p.id := by
  cases p
  rw [Package.outline]
  exact Package.declaredId_fields _ _

theorem Package.id_render_of_ok {p : Package} {text : String} (h : p.render.result = .ok text) :
    p.render.state.id = p.id := by
  obtain ⟨_, _, _, -, -, -, -, state⟩ := Package.render_ok h
  rw [state]
  rfl

mutual

/-- A successful rendering writes the outline of the tree that it leaves. -/
theorem Package.text_outline_of_render : (p : Package) → {text : String} →
    p.render.result = .ok text → p.render.state.outline.text = text
  | ⟨info, verification, files, packages, dependencies, options⟩, text, h => by
    obtain ⟨v, _, _, -, contained, required, written, state⟩ := Package.render_ok h
    dsimp only [Package.id] at contained required written state
    rw [state, written, Package.outline, Outline.text, Package.declaredId_fields, filesText_stanza,
      packages.text_outline_of_render contained, dependencies.text_outline_of_render required,
      Outlines.text, String.append_empty, ← String.append_assoc]
    rfl

theorem Children.text_outline_of_render {floor : Option String} : (c : Children floor) →
    {owner : String} → {r : Relationship} → {text : String} →
      (c.render owner r).result = .ok text → (others : Outlines) →
        ((c.render owner r).state.outline r others).text owner = text ++ others.text owner
  | .nil, owner, r, text, h, others => by
    rw [Children.render_result_nil] at h
    rw [← Except.ok.inj h, Children.render, Children.outline, String.empty_append]
  | .cons key above child rest, owner, r, text, h, others => by
    obtain ⟨first, more, rendered, behind, written, state⟩ := Children.render_ok_cons h
    rw [state, written, Children.outline, Outlines.text, Package.declaredId_outline,
      Package.id_render_of_ok rendered, child.text_outline_of_render rendered,
      rest.text_outline_of_render behind, String.append_assoc, String.append_assoc,
      String.append_assoc]

end
end BillOfMaterials
