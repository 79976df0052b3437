import BillOfMaterials.Proofs.Document.Lines
import BillOfMaterials.Proofs.Rendering.FirstDefect
import BillOfMaterials.Proofs.Tree.Built
import BillOfMaterials.Proofs.Tree.Edges

/-!
# Transcripts

A document is read line by line into a transcript: the names of the packages whose titles are met
and the edges that the relationships tell, where both ends of a relationship have been declared in
lines before it. A document of a built tree has its packages in pre-order and its edges in
post-order.
-/
namespace BillOfMaterials

/-- An identifier, not empty, that one of the lines declares. -/
def Declared (lines : List String) (id : String) : Prop := id ≠ "" ∧ "SPDXID: " ++ id ∈ lines

/-- `Transcript before lines names edges`: behind the lines `before`, the lines tell of the packages
called `names` and of `edges`, whose ends are declared by then. -/
inductive Transcript : List String → List String → List String → List Edge → Prop
  | nil {before : List String} : Transcript before [] [] []
  | title {before lines names : List String} {edges : List Edge} {name : String}
      (oneLine : OneLine name)
      (rest : Transcript (before ++ [titleMark ++ name]) lines names edges) :
      Transcript before ((titleMark ++ name) :: lines) (name :: names) edges
  | relation {before lines names : List String} {edges : List Edge} {e : Edge}
      (oneLine : OneLine e.line) (owner : Declared before e.owner)
      (element : Declared before e.element)
      (rest : Transcript (before ++ [e.line]) lines names edges) :
      Transcript before (e.line :: lines) names (e :: edges)
  | silent {before lines names : List String} {edges : List Edge} {line : String}
      (silent : Silent line) (rest : Transcript (before ++ [line]) lines names edges) :
      Transcript before (line :: lines) names edges

variable {before lines lines' names names' : List String} {edges edges' : List Edge}

theorem Declared.append {id : String} (h : Declared lines id) (lines' : List String) :
    Declared (lines ++ lines') id :=
  ⟨h.1, List.mem_append_left _ h.2⟩

theorem Declared.behind {id : String} (h : Declared lines id) (before : List String) :
    Declared (before ++ lines) id :=
  ⟨h.1, List.mem_append_right _ h.2⟩

theorem Edge.line_eq_relation (e : Edge) : ∃ rest, e.line = relationMark ++ rest := by
  obtain ⟨owner, relationship, element⟩ := e
  cases relationship with
  | contains =>
    refine ⟨owner ++ " CONTAINS " ++ element, ?_⟩
    rw [← String.append_assoc, ← String.append_assoc]
    rfl
  | dependsOn =>
    refine ⟨owner ++ " DEPENDS_ON " ++ element, ?_⟩
    rw [← String.append_assoc, ← String.append_assoc]
    rfl

theorem Edge.isRelation_line (e : Edge) : isRelation e.line = true := by
  obtain ⟨rest, split⟩ := e.line_eq_relation
  rw [split, isRelation_relation]

theorem Edge.isTitle_line (e : Edge) : isTitle e.line = false := by
  obtain ⟨rest, split⟩ := e.line_eq_relation
  rw [split, isTitle_relation]

namespace Transcript

theorem append (h : Transcript before lines names edges)
    (h' : Transcript (before ++ lines) lines' names' edges') :
    Transcript before (lines ++ lines') (names ++ names') (edges ++ edges') := by
  induction h with
  | nil => simpa using h'
  | title oneLine _ ih => exact .title oneLine (ih (by simpa using h'))
  | relation oneLine owner element _ ih =>
    exact .relation oneLine owner element (ih (by simpa using h'))
  | silent silent _ ih => exact .silent silent (ih (by simpa using h'))

theorem of_silent (h : ∀ line ∈ lines, Silent line) : Transcript before lines [] [] := by
  induction lines generalizing before with
  | nil => exact .nil
  | cons line lines ih =>
    exact .silent (h line (List.mem_cons_self ..))
      (ih fun line member => h line (List.mem_cons_of_mem _ member))

theorem oneLine (h : Transcript before lines names edges) : ∀ line ∈ lines, OneLine line := by
  induction h with
  | nil => simp
  | title oneLine _ ih =>
    rw [List.forall_mem_cons]
    exact ⟨(show OneLine titleMark by decide).append oneLine, ih⟩
  | relation oneLine _ _ _ ih =>
    rw [List.forall_mem_cons]
    exact ⟨oneLine, ih⟩
  | silent silent _ ih =>
    rw [List.forall_mem_cons]
    exact ⟨silent.oneLine, ih⟩

theorem titles (h : Transcript before lines names edges) :
    lines.filter isTitle = names.map (titleMark ++ ·) := by
  induction h with
  | nil => rfl
  | title _ _ ih => simp [isTitle_title, ih]
  | relation _ _ _ _ ih => simp [Edge.isTitle_line, ih]
  | silent silent _ ih => simp [silent.not_title, ih]

theorem relations (h : Transcript before lines names edges) :
    lines.filter isRelation = edges.map Edge.line := by
  induction h with
  | nil => rfl
  | title _ _ ih => simp [isRelation_title, ih]
  | relation _ _ _ _ ih => simp [Edge.isRelation_line, ih]
  | silent silent _ ih => simp [silent.not_relation, ih]

/-- The relationship behind `front` tells the edge in its place, whose ends are declared by then. -/
theorem declared (h : Transcript before lines names edges) {front back : List String}
    {line : String} (split : lines = front ++ line :: back) (relation : isRelation line = true) :
    ∃ e, edges[(front.filter isRelation).length]? = some e ∧ line = e.line ∧
      Declared (before ++ front) e.owner ∧ Declared (before ++ front) e.element := by
  induction h generalizing front with
  | nil => simp at split
  | @title before _ _ _ name _ _ ih =>
    cases front with
    | nil =>
      rw [← (List.cons.inj split).1, isRelation_title] at relation
      cases relation
    | cons first front =>
      obtain ⟨rfl, later⟩ := List.cons.inj split
      simpa [isRelation_title] using ih later
  | @relation before _ _ _ e _ owner element _ ih =>
    cases front with
    | nil =>
      exact ⟨e, rfl, (List.cons.inj split).1.symm, by simpa using owner, by simpa using element⟩
    | cons first front =>
      obtain ⟨rfl, later⟩ := List.cons.inj split
      simpa [Edge.isRelation_line] using ih later
  | @silent before _ _ _ first silent _ ih =>
    cases front with
    | nil =>
      rw [← (List.cons.inj split).1, silent.not_relation] at relation
      cases relation
    | cons first front =>
      obtain ⟨rfl, later⟩ := List.cons.inj split
      simpa [silent.not_relation] using ih later

end Transcript

theorem Relationship.line_eq_unlines (r : Relationship) (owner element : String) :
    r.line owner element = Text.unlines [Edge.line ⟨owner, r, element⟩, ""] := by
  have ends : "\n\n" = "\n" ++ "\n" := rfl
  rw [line_eq, ends, Text.unlines_cons, Text.unlines_cons, ← String.append_assoc]
  rfl

theorem header_eq_unlines (name : String) :
    header ("Package: " ++ name) = Text.unlines [titleMark ++ name, ""] := by
  apply String.toList_inj.mp
  simp [header, titleMark, Text.unlines, String.join_cons]

theorem Edge.oneLine_line {e : Edge} (owner : OneLine e.owner) (element : OneLine e.element) :
    OneLine e.line := by
  obtain ⟨_, relationship, _⟩ := e
  have mark : OneLine "Relationship: " := by decide
  cases relationship with
  | contains => exact ((mark.append owner).append (by decide)).append element
  | dependsOn => exact ((mark.append owner).append (by decide)).append element

/-- The lines that close an element. -/
theorem Transcript.closing {e : Edge} (oneLine : OneLine e.line) (owner : Declared before e.owner)
    (element : Declared before e.element) : Transcript before [e.line, ""] [] [e] :=
  .relation oneLine owner element (.silent silent_empty .nil)

namespace Package

theorem inline_iff {p : Package} : p.Inline ↔ (p.info.Inline ∧ ∀ f ∈ p.files.values, f.Inline) ∧
    ∀ r, ∀ entry ∈ (p.children r).toList, entry.2.Inline :=
  forall_preorder_iff

theorem transcript_renderFiles {owner : String} (files : List File) (line : OneLine owner)
    (declared : files ≠ [] → Declared before owner)
    (inline : ∀ f ∈ files, f.Inline ∧ f.id ≠ "") :
    ∃ lines, renderFiles owner files = Text.unlines lines ∧
      Transcript before lines [] (files.map fun f => ⟨owner, .contains, f.id⟩) := by
  induction files generalizing before with
  | nil => exact ⟨[], rfl, .nil⟩
  | cons f files ih =>
    have known := declared (List.cons_ne_nil _ _)
    obtain ⟨own, named⟩ := inline f (List.mem_cons_self ..)
    obtain ⟨ls, text, silent, shown⟩ := own.lines
    let e : Edge := ⟨owner, .contains, f.id⟩
    have closed : OneLine e.line := Edge.oneLine_line line (own.1 f.id (by simp [File.strings]))
    have known' : Declared (before ++ (ls ++ [e.line, ""])) owner := known.append _
    obtain ⟨others, texts, rest⟩ := ih (fun _ => known') fun g member =>
      inline g (List.mem_cons_of_mem _ member)
    refine ⟨ls ++ [e.line, ""] ++ others, ?_, ?_⟩
    · rw [Text.unlines_append, Text.unlines_append, ← text, ← texts,
        ← Relationship.line_eq_unlines, renderFiles, renderFiles, List.map_cons, String.join_cons]
    · have here : Declared (before ++ ls) f.id := ⟨named, List.mem_append_right _ (shown named)⟩
      have first := (Transcript.of_silent silent).append
        (Transcript.closing closed (known.append ls) here)
      exact first.append rest

end Package

theorem Package.Inline.oneLine_id {p : Package} (h : p.Inline) : OneLine p.id :=
  (Package.inline_iff.mp h).1.1.1 p.id (by simp [PackageInfo.strings, Package.id])

/-- A package that can be rendered has an identifier if it has anything to relate to. -/
theorem Package.named_of_prepare {p : Package} {v : Verification} (h : p.prepare = .ok v)
    (owns : p.files.values ≠ [] ∨ p.packages.toList ≠ [] ∨ p.dependencies.toList ≠ []) :
    p.id ≠ "" := by
  intro empty
  have unnamed : p.Unnamed := ⟨empty, owns⟩
  rw [prepare_of_unnamed unnamed] at h
  cases h

/-- The package itself: its title, its stanza, which declares it, and its files. -/
theorem Package.transcript_own {p : Package} {v : Verification} (filed : p.Filed)
    (inline : p.info.Inline ∧ ∀ f ∈ p.files.values, f.Inline) (prepared : p.prepare = .ok v)
    (before : List String) :
    ∃ lines, header ("Package: " ++ p.name) ++ (fields p.info v).render
        ++ renderFiles p.id p.files.values = Text.unlines lines ∧
      Transcript before lines [p.name] (p.files.values.map fun f => ⟨p.id, .contains, f.id⟩) ∧
      (p.id ≠ "" → Declared lines p.id) := by
  obtain ⟨own, filesInline⟩ := inline
  have summed := legible_of_verify (fun f owned => (filesInline f owned).1)
    (verify_of_prepare prepared)
  have idLine : OneLine p.id := own.1 p.id (by simp [PackageInfo.strings, id])
  have nameLine : OneLine p.name := own.1 p.name (by simp [PackageInfo.strings, name])
  obtain ⟨ls, stanza, silent, shown⟩ := own.lines summed
  let head := (titleMark ++ p.name) :: "" :: ls
  have told : Transcript before head [p.name] [] :=
    .title nameLine (.silent silent_empty (.of_silent silent))
  have declared (known : p.id ≠ "") : Declared head p.id :=
    ⟨known, List.mem_cons_of_mem _ (List.mem_cons_of_mem _ (shown known))⟩
  obtain ⟨fs, text, filesTold⟩ := transcript_renderFiles p.files.values idLine
    (fun owns => (declared (named_of_prepare prepared (.inl owns))).behind before)
    fun f owned =>
      ⟨filesInline f owned, fun empty => filed.fileIds_named (empty ▸ List.mem_map_of_mem owned)⟩
  refine ⟨head ++ fs, ?_, by simpa using told.append filesTold,
    fun known => (declared known).append fs⟩
  rw [header_eq_unlines, stanza, text, ← Text.unlines_append, ← Text.unlines_append]
  rfl

mutual

/-- A successful rendering of a tree that is filed throughout, in single lines, is a transcript. -/
theorem Package.transcript_render : (p : Package) → p.FiledThroughout → p.Inline →
    {text : String} → p.render.result = .ok text → (before : List String) →
      ∃ lines, text = Text.unlines lines ∧
        Transcript before lines (p.preorder.map Package.name) p.edges ∧
        (p.id ≠ "" → Declared lines p.id)
  | ⟨info, verification, files, packages, dependencies, options⟩, filed, inline, text, h,
      before => by
    obtain ⟨own, below⟩ := Package.filedThroughout_iff.mp filed
    obtain ⟨ownInline, belowInline⟩ := Package.inline_iff.mp inline
    obtain ⟨v, _, _, prepared, contained, required, written, -⟩ := Package.render_ok h
    obtain ⟨ls, head, told, declared⟩ := Package.transcript_own own ownInline prepared before
    have line : OneLine info.id := inline.oneLine_id
    have named := Package.named_of_prepare prepared
    dsimp only [Package.id, Package.name] at contained required written head told declared named
    -- an identifier is not needed, and not declared, where nothing relates to the package
    have within (known : info.id ≠ "") : Declared (before ++ ls) info.id :=
      (declared known).behind before
    have stored (r : Relationship) (entry : String × Package)
        (member : entry ∈ (Package.children ⟨info, verification, files, packages, dependencies,
          options⟩ r).toList) : entry.2.id ≠ "" ∧ entry.2.FiledThroughout :=
      ⟨fun empty => own.childIds_named r (empty ▸ List.mem_map_of_mem member), below r entry member⟩
    obtain ⟨ps, rfl, packagesTold⟩ := packages.transcript_render (stored .contains)
      (belowInline .contains) contained line (before ++ ls)
      fun owns => within (named (.inr (.inl owns)))
    obtain ⟨ds, rfl, dependenciesTold⟩ := dependencies.transcript_render (stored .dependsOn)
      (belowInline .dependsOn) required line (before ++ ls ++ ps)
      fun owns => (within (named (.inr (.inr owns)))).append ps
    refine ⟨ls ++ (ps ++ ds), ?_, ?_, fun known => (declared known).append _⟩
    · rw [written, Package.document, head, Text.unlines_append, Text.unlines_append,
        String.append_assoc]
    · rw [Package.preorder_eq, Package.edges]
      have whole := told.append (packagesTold.append dependenciesTold)
      simpa [Package.name] using whole

theorem Children.transcript_render {floor : Option String} : (c : Children floor) →
    (∀ entry ∈ c.toList, entry.2.id ≠ "" ∧ entry.2.FiledThroughout) →
    (∀ entry ∈ c.toList, entry.2.Inline) → {owner : String} → {r : Relationship} →
    {text : String} → (c.render owner r).result = .ok text → OneLine owner →
    (before : List String) → (c.toList ≠ [] → Declared before owner) →
      ∃ lines, text = Text.unlines lines ∧
        Transcript before lines (c.preorder.map Package.name) (c.edges owner r)
  | .nil, _, _, owner, r, text, h, _, before, _ => by
    rw [Children.render_result_nil] at h
    exact ⟨[], (Except.ok.inj h).symm, .nil⟩
  | .cons key above child rest, filed, inline, owner, r, text, h, line, before, declared => by
    rw [Children.toList, List.forall_mem_cons] at filed inline
    obtain ⟨_, _, first, others, rfl, -⟩ := Children.render_ok_cons h
    have known : Declared before owner := declared (by simp [Children.toList])
    obtain ⟨ls, rfl, told, shown⟩ := child.transcript_render filed.1.2 inline.1 first before
    let e : Edge := ⟨owner, r, child.info.id⟩
    have closed : OneLine e.line := Edge.oneLine_line line inline.1.oneLine_id
    -- the child has declared itself by the time that its relationship is told
    have here : Declared (before ++ ls) e.element := (shown filed.1.1).behind before
    obtain ⟨os, rfl, behind⟩ := rest.transcript_render filed.2 inline.2 others line
      (before ++ (ls ++ [e.line, ""])) fun _ => known.append _
    refine ⟨ls ++ [e.line, ""] ++ os, ?_, ?_⟩
    · rw [Text.unlines_append, Text.unlines_append, Relationship.line_eq_unlines]
      rfl
    · rw [Children.preorder_cons, Children.edges]
      have whole := (told.append (.closing closed (known.append ls) here)).append behind
      simpa using whole

end

/-- What the lines of a document tell of its tree. -/
structure Package.ToldBy (p : Package) (text : String) : Prop where
  /-- One relationship for each edge, in post-order. -/
  relations : (Text.lines text).filter isRelation = p.edges.map Edge.line
  /-- One edge for each file and for each package but the root. -/
  links : p.edges.Perm (p.preorder.flatMap links)
  /-- One title for each package, in pre-order. -/
  titles : (Text.lines text).filter isTitle = p.preorder.map fun q => titleMark ++ q.name
  /-- The ends of a relationship are declared in lines before it. -/
  declared : ∀ front line back, Text.lines text = front ++ line :: back → isRelation line = true →
    ∃ e, p.edges[(front.filter isRelation).length]? = some e ∧ line = e.line ∧
      Declared front e.owner ∧ Declared front e.element
  /-- Files and children come in ascending order of their identifiers. -/
  ascending : ∀ q ∈ p.preorder, q.fileIds.Pairwise (· < ·) ∧ ∀ r, (q.childIds r).Pairwise (· < ·)

/-- The document of a built tree, if all strings have one line, tells the tree. -/
theorem Package.document_tells_tree {p : Package} {text : String} (built : p.Built)
    (inline : p.Inline) (h : p.render.result = .ok text) : p.ToldBy text := by
  have filed := built.filedThroughout
  obtain ⟨ls, rfl, told, -⟩ := p.transcript_render filed inline h []
  have lines : Text.lines (Text.unlines ls) = ls ++ [""] := Text.lines_unlines told.oneLine
  have whole : Transcript [] (ls ++ [""]) (p.preorder.map Package.name) p.edges := by
    simpa using told.append (.silent silent_empty .nil)
  rw [← lines] at whole
  refine ⟨whole.relations, p.edges_perm_links, ?_, ?_, ?_⟩
  · rw [whole.titles, List.map_map]
    rfl
  · intro front line back split relation
    simpa using whole.declared split relation
  · intro q member
    exact ⟨(filed q member).fileIds_ascending, (filed q member).childIds_ascending⟩

/-- The file of a dependency is attached after the dependency and told before it. -/
theorem Package.document_tells_tree_of_app :
    let start := childless { name := "app", id := "Package-app" } {} {}
    let attached := (start.reach (Call.add (.package .dependsOn (named "zlib"))).perform []).2
    let file : File := { id := "File-zlib", name := "a CONTAINS b" }
    let p := (attached.reach (Call.add (.file file)).perform [(.dependsOn, "Package-zlib")]).2
    p.Built ∧ p.Inline ∧
      p.edges = [⟨"Package-zlib", .contains, "File-zlib"⟩,
        ⟨"Package-app", .dependsOn, "Package-zlib"⟩] ∧
      ∃ text, p.render.result = .ok text ∧ p.ToldBy text ∧
        (Text.lines text).filter isRelation =
          ["Relationship: Package-zlib CONTAINS File-zlib",
            "Relationship: Package-app DEPENDS_ON Package-zlib"] := by
  intro start attached file p
  have leaf : (named "zlib").Built := .start _ _ _
  have part : attached.Built := .attach (.start _ _ _) leaf .dependsOn
  have built : p.Built := by
    refine .call part _ _ (fun r child same => ?_) (fun _ q => ?_)
    · cases same
    · rfl
  have inline : p.Inline := by decide +kernel
  have told := document_tells_tree built inline rfl
  exact ⟨built, inline, rfl, _, rfl, told, told.relations⟩

end BillOfMaterials
