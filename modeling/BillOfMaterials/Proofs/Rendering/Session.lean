import BillOfMaterials.Proofs.Rendering.Refresh
import BillOfMaterials.Proofs.Store.Attachment
import BillOfMaterials.Source

/-!
# Renderings in between

A session makes calls on the packages of one tree and collects their replies. Renderings that are
put in between, of any package, whether they succeed or fail, change no reply, because no call reads
the summaries that are all a rendering leaves behind.
-/
namespace BillOfMaterials

namespace Package

/-- What a caller does with a package. -/
inductive Call where
  | add (item : Attachment)
  | edit (change : PackageInfo → PackageInfo)
  | setOptions (options : Options)
  | readSource (fs : FileSystem) (path : Path)
  | render

abbrev Reply := Except Error String

/-- The reply to a call, empty where the call returns nothing, and the package after it. -/
def Call.perform : Call → Package → Reply × Package
  | .add item, p => ((p.add item).result, (p.add item).state)
  | .edit change, p => (.ok "", { p with info := change p.info })
  | .setOptions options, p => (.ok "", p.withOptions options)
  | .readSource fs path, p =>
    ((p.readSource fs path).result.map fun _ => "", (p.readSource fs path).state)
  | .render, p => (p.render.result, p.render.state)

/-- An action on the package that the hops lead to; without one nothing happens. -/
def reach {α : Type} (act : Package → α × Package) (hops : List Hop) (p : Package) :
    Option α × Package :=
  match p.modifyAt act hops with
  | some (result, p) => (some result, p)
  | none => (none, p)

/-- A turn of a session: a call, or a rendering put in between. -/
inductive Turn where
  | call (hops : List Hop) (c : Call)
  | between (hops : List Hop)

/-- The replies to the calls of a session. -/
def replies : List Turn → Package → List (Option Reply)
  | [], _ => []
  | .call hops c :: rest, p =>
    (p.reach c.perform hops).1 :: replies rest (p.reach c.perform hops).2
  | .between hops :: rest, p => replies rest (p.reach Call.render.perform hops).2

/-- Whether a turn is a call of the session itself. -/
def Turn.isCall : Turn → Bool
  | .call .. => true
  | .between _ => false

/-- An action whose result and lasting effect do not depend on summaries. -/
def IgnoresSummaries {α : Type} (act : Package → α × Package) : Prop :=
  ∀ p, ((act p).1, (act p).2.lasting) = ((act p.lasting).1, (act p.lasting).2.lasting)

theorem children_lasting (p : Package) (r : Relationship) :
    p.lasting.children r = (p.children r).lasting := by
  cases p
  cases r <;> rfl

theorem setChildren_children (p : Package) (r : Relationship) :
    p.setChildren r (p.children r) = p := by
  cases p
  cases r <;> rfl

theorem lasting_setChildren (p : Package) (r : Relationship) (c : Children none) :
    (p.setChildren r c).lasting = p.lasting.setChildren r c.lasting := by
  cases p
  cases r <;> rfl

end Package

theorem Children.lasting_lasting {floor : Option String} (c : Children floor) :
    c.lasting.lasting = c.lasting :=
  c.mapOwn_mapOwn Package.Own.lasting Package.Own.lasting

theorem Children.lasting_cons {floor : Option String} (key : String) (above : Above floor key)
    (child : Package) (rest : Children (some key)) :
    (cons key above child rest).lasting = cons key above child.lasting rest.lasting := rfl

theorem Children.lasting_insert {floor : Option String} (c : Children floor) (key : String)
    (child : Package) (above : Above floor key) :
    (c.insert key child above).lasting = c.lasting.insert key child.lasting above :=
  c.mapOwn_insert Package.Own.lasting key child above

theorem Children.modify_lasting {α : Type} {act : Package → α × Package}
    (ignores : Package.IgnoresSummaries act) (key : String) {floor : Option String}
    (c : Children floor) :
    (c.modify key act).map (fun done => (done.1, done.2.lasting)) =
      (c.lasting.modify key act).map fun done => (done.1, done.2.lasting) := by
  induction c with
  | nil => rfl
  | cons key' above' child rest ih =>
    rw [lasting_cons, modify, modify]
    split
    · have here := Prod.mk.inj (ignores child)
      dsimp only [Option.map]
      rw [lasting_cons, lasting_cons, here.1, here.2, rest.lasting_lasting]
    · calc
        Option.map (fun done => (done.1, done.2.lasting))
            ((rest.modify key act).map fun done => (done.1, cons key' above' child done.2)) =
            ((rest.modify key act).map fun done => (done.1, done.2.lasting)).map
              fun done => (done.1, cons key' above' child.lasting done.2) := by
          rw [Option.map_map, Option.map_map]
          rfl
        _ = ((rest.lasting.modify key act).map fun done => (done.1, done.2.lasting)).map
              fun done => (done.1, cons key' above' child.lasting.lasting done.2) := by
          rw [ih, child.lasting_lasting]
        _ = Option.map (fun done => (done.1, done.2.lasting))
              ((rest.lasting.modify key act).map
                fun done => (done.1, cons key' above' child.lasting done.2)) := by
          rw [Option.map_map, Option.map_map]
          rfl

theorem Children.lasting_of_modify {α : Type} {act : Package → α × Package}
    (keeps : ∀ p, (act p).2.lasting = p.lasting) (key : String) {floor : Option String}
    (c : Children floor) {result : α} {c' : Children floor}
    (h : c.modify key act = some (result, c')) : c'.lasting = c.lasting := by
  induction c with
  | nil => cases h
  | cons key' above' child rest ih =>
    rw [modify] at h
    split at h
    · cases h
      rw [lasting_cons, lasting_cons, keeps]
    · obtain ⟨⟨result', rest'⟩, later, same⟩ := Option.map_eq_some_iff.mp h
      cases same
      rw [lasting_cons, lasting_cons, ih later]

namespace Package

theorem reach_cons {α : Type} (act : Package → α × Package) (hop : Hop) (more : List Hop)
    (p : Package) :
    reach act (hop :: more) p =
      match (p.children hop.1).modify hop.2 (reach act more) with
      | some (some result, c) => (some result, p.setChildren hop.1 c)
      | _ => (none, p) := by
  rw [reach, modifyAt]
  change (match (match (p.children hop.1).modify hop.2 (reach act more) with
    | some (some result, c) => some (result, p.setChildren hop.1 c)
    | _ => none) with
    | some (result, p) => (some result, p)
    | none => (none, p)) = _
  rcases (p.children hop.1).modify hop.2 (reach act more) with _ | ⟨_ | result, c⟩ <;> rfl

/-- Reaching a package on hops depends on summaries only if the action there does. -/
theorem IgnoresSummaries.reach {α : Type} {act : Package → α × Package}
    (ignores : IgnoresSummaries act) (hops : List Hop) :
    IgnoresSummaries (Package.reach act hops) := by
  induction hops with
  | nil =>
    intro p
    have here := Prod.mk.inj (ignores p)
    exact Prod.ext (congrArg some here.1) here.2
  | cons hop more ih =>
    intro p
    have below := (p.children hop.1).modify_lasting ih hop.2
    have stuck : (none, p.lasting) = ((none : Option α), p.lasting.lasting) := by
      rw [p.lasting_lasting]
    rw [reach_cons, reach_cons, children_lasting]
    generalize (p.children hop.1).modify hop.2 (Package.reach act more) = x at below
    generalize (p.children hop.1).lasting.modify hop.2 (Package.reach act more) = y at below
    cases x with
    | none =>
      cases y with
      | none => exact stuck
      | some done => cases below
    | some done =>
      cases y with
      | none => cases below
      | some done' =>
        have same := Prod.mk.inj (Option.some.inj below)
        rcases done with ⟨result, c⟩
        rcases done' with ⟨result', c'⟩
        dsimp only at same
        rw [same.1]
        cases result' with
        | none => exact stuck
        | some r =>
          dsimp only
          rw [lasting_setChildren, lasting_setChildren, same.2, p.lasting_lasting]

theorem lasting_mk (info : PackageInfo) (verification : Verification) (files : SortedMap File)
    (packages dependencies : Children none) (options : Options) :
    lasting ⟨info, verification, files, packages, dependencies, options⟩ =
      ⟨info, {}, files, packages.lasting, dependencies.lasting, options⟩ := rfl

theorem accept_lasting (p child : Package) : p.lasting.accept child = p.accept child := by
  have taken (id : String) : p.lasting.namespaceOf id = p.namespaceOf id := by
    cases p
    rw [namespaceOf, namespaceOf, lasting_mk]
    dsimp only
    rw [Children.lasting, Children.lasting, Children.contains_mapOwn, Children.contains_mapOwn]
  rw [accept, accept]
  simp only [taken]

theorem Call.ignoresSummaries_add (item : Attachment) :
    IgnoresSummaries (Call.add item).perform := by
  intro p
  cases item with
  | file f =>
    cases p
    rw [perform, perform, Package.add, Package.add, lasting_mk, addFile, addFile]
    dsimp only [fileId, name]
    split <;> simp only [lasting_mk, Children.lasting_lasting]
  | package r child =>
    rw [perform, perform, add_package, add_package, attach, attach, accept_lasting]
    cases p.accept child with
    | error e =>
      dsimp only
      rw [p.lasting_lasting]
    | ok stored =>
      dsimp only
      rw [lasting_setChildren, lasting_setChildren, children_lasting, p.lasting_lasting,
        (p.children r).lasting_insert stored.id stored trivial,
        (p.children r).lasting.lasting_insert stored.id stored trivial,
        (p.children r).lasting_lasting]

/-- No call reads a summary. -/
theorem Call.ignoresSummaries (c : Call) : IgnoresSummaries c.perform := by
  cases c with
  | add item => exact ignoresSummaries_add item
  | edit change =>
    intro p
    cases p
    simp only [perform, lasting_mk, Children.lasting_lasting]
  | setOptions options =>
    intro p
    cases p
    simp only [perform, withOptions, lasting_mk, Children.lasting_lasting]
  | readSource fs path =>
    intro p
    cases p
    simp only [perform, Package.readSource, Package.readSourceDuring, lasting_mk]
    split
    · simp only [lasting_mk, Children.lasting_lasting]
    · split <;> simp only [lasting_mk, Children.lasting_lasting]
  | render =>
    intro p
    rw [perform, perform, p.lasting_render, p.lasting.lasting_render, p.lasting_lasting,
      render_result_of_lasting_eq p.lasting_lasting]

/-- Two trees with the same lasting data are told apart by no action that ignores summaries. -/
theorem IgnoresSummaries.alike {α : Type} {act : Package → α × Package}
    (ignores : IgnoresSummaries act) {p q : Package} (same : p.lasting = q.lasting) :
    (act p).1 = (act q).1 ∧ (act p).2.lasting = (act q).2.lasting := by
  have here := Prod.mk.inj (ignores p)
  have there := Prod.mk.inj (ignores q)
  rw [here.1, here.2, there.1, there.2, same]
  exact ⟨rfl, rfl⟩

/-- What keeps the lasting data of every package keeps that of a tree it is applied in. -/
theorem lasting_reach {α : Type} {act : Package → α × Package}
    (keeps : ∀ p, (act p).2.lasting = p.lasting) (hops : List Hop) (p : Package) :
    (p.reach act hops).2.lasting = p.lasting := by
  induction hops generalizing p with
  | nil => exact keeps p
  | cons hop more ih =>
    rw [reach_cons]
    cases done : (p.children hop.1).modify hop.2 (reach act more) with
    | none => rfl
    | some step =>
      rcases step with ⟨_ | result, c⟩
      · rfl
      · dsimp only
        rw [lasting_setChildren, (p.children hop.1).lasting_of_modify ih hop.2 done,
          ← children_lasting, setChildren_children]

/-- Sessions on trees with the same lasting data are told the same, with or without renderings in
between. -/
theorem replies_filter_isCall (turns : List Turn) {p q : Package} (same : p.lasting = q.lasting) :
    replies turns p = replies (turns.filter Turn.isCall) q := by
  induction turns generalizing p q with
  | nil => rfl
  | cons turn rest ih =>
    cases turn with
    | call hops c =>
      have alike := (c.ignoresSummaries.reach hops).alike same
      rw [List.filter_cons_of_pos rfl, replies, replies, alike.1, ih alike.2]
    | between hops =>
      rw [List.filter_cons_of_neg (by simp [Turn.isCall]), replies]
      have keeps (p : Package) : (Call.render.perform p).2.lasting = p.lasting := p.lasting_render
      exact ih ((lasting_reach keeps hops p).trans same)

/-- Rendering reads a tree up to the summaries it leaves. It changes nothing else anywhere; its
result depends neither on summaries nor on what documents do not show; renderings put in between
change no reply of a session; repeating a successful one repeats its text and changes nothing. -/
theorem render_reads_up_to_summaries :
    (∀ p : Package, p.render.state.lasting = p.lasting) ∧
    (∀ p q : Package, p.shown = q.shown → p.render.result = q.render.result) ∧
    (∀ (turns : List Turn) (p : Package),
      replies turns p = replies (turns.filter Turn.isCall) p) ∧
    ∀ (p : Package) (text : String), p.render.result = .ok text →
      p.render.state.render.result = .ok text ∧
        p.render.state.render.state = p.render.state := by
  refine ⟨lasting_render, ?_, ?_, ?_⟩
  · intro p q same
    exact render_result_of_shown_eq same
  · intro turns p
    exact replies_filter_isCall turns rfl
  · intro p text h
    exact render_again h

theorem render_reads_up_to_summaries_stale :
    let p := childless { name := "zlib" } ⟨"stale", ["MIT"]⟩ {}
    let q := childless { name := "zlib", sourceFile := "zlib.tar" } {} {}
    p.shown = q.shown ∧ p.render.result = q.render.result ∧
      ∃ text, p.render.result = .ok text ∧ p.render.state.render.result = .ok text ∧
        p.render.state.render.state = p.render.state :=
  ⟨rfl, render_reads_up_to_summaries.2.1 _ _ rfl, _, rfl,
    render_reads_up_to_summaries.2.2.2 _ _ rfl⟩

end Package
end BillOfMaterials
