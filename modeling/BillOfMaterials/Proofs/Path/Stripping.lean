import BillOfMaterials.Proofs.Path.Segments
import Mathlib.Data.List.DropRight
import Mathlib.Data.List.Infix

/-!
# Stripping components

What is left of a path behind the components of another has exactly the components that follow them.
Of the other path only the components count. Blank segments are no components, so they can be put in
and taken out; the front of a path alone needs care, for there a slash or a `.` is one.
-/
namespace BillOfMaterials.Path

variable {bytes segment first : List UInt8} {parts rest more : List (List UInt8)}

theorem component_inj {s t : List UInt8} : component s = component t ↔ s = t := by
  rw [component, component]
  by_cases hs : s = [dot, dot] <;> by_cases ht : t = [dot, dot] <;> simp [hs, ht, eq_comm]

theorem isBlank_eq_false_iff : isBlank segment = false ↔ segment ≠ [] ∧ segment ≠ [dot] := by
  simp [isBlank]

section Segments

theorem segments_cons (c : UInt8) (bytes : List UInt8) :
    segments (c :: bytes) =
      if c = slash then [] :: segments bytes else (segments bytes).modifyHead (c :: ·) := by
  simp only [segments_eq_splitOn, List.splitOn_cons_eq_if_modifyHead, beq_iff_eq]

theorem segments_append_slash (a b : List UInt8) :
    segments (a ++ slash :: b) = segments a ++ segments b := by
  simp only [segments_eq_splitOn, List.splitOn_append_cons_self]

theorem exists_segments (bytes : List UInt8) : ∃ first more, segments bytes = first :: more := by
  rw [segments_eq_splitOn]
  exact List.exists_cons_of_ne_nil (List.splitOn_ne_nil _ _)

theorem slash_notMem_of_mem_segments (member : segment ∈ segments bytes) : slash ∉ segment := by
  induction bytes generalizing segment with
  | nil =>
    rw [List.mem_singleton.mp member]
    exact List.not_mem_nil
  | cons c bytes ih =>
    obtain ⟨first, more, split⟩ := exists_segments bytes
    rw [segments_cons] at member
    split at member
    · rcases List.mem_cons.mp member with rfl | later
      · exact List.not_mem_nil
      · exact ih later
    next apart =>
      rw [split] at ih member
      rcases List.mem_cons.mp member with rfl | later
      · rw [List.mem_cons, not_or]
        exact ⟨Ne.symm apart, ih (List.mem_cons_self ..)⟩
      · exact ih (List.mem_cons_of_mem _ later)

theorem segments_join (some : parts ≠ []) (apart : ∀ s ∈ parts, slash ∉ s) :
    segments (join parts) = parts := by
  rw [segments_eq_splitOn, join, List.splitOn_intercalate slash apart some]

/-- The first segment is empty where nothing or a slash comes first. -/
theorem segments_eq_nil_cons_iff :
    (∃ more, segments bytes = [] :: more) ↔ bytes.head?.getD slash = slash := by
  cases bytes with
  | nil => exact iff_of_true ⟨[], rfl⟩ rfl
  | cons c bytes =>
    obtain ⟨first, more, split⟩ := exists_segments bytes
    rw [segments_cons, split]
    by_cases closed : c = slash <;> simp [closed]

end Segments

section Front

/-- How a path opens: with a root, with a `.` that no name goes on with, or with a name. -/
inductive Fronted : List UInt8 → List Component × List UInt8 → Prop
  | empty : Fronted [] ([], [])
  | root {rest : List UInt8} : Fronted (slash :: rest) ([.root], rest)
  | current {rest : List UInt8} (closed : rest.head?.getD slash = slash) :
      Fronted (dot :: rest) ([.current], rest)
  | name {bytes first : List UInt8} {more : List (List UInt8)}
      (split : segments bytes = first :: more) (filled : isBlank first = false) :
      Fronted bytes ([], bytes)

theorem fronted (bytes : List UInt8) : Fronted bytes (front bytes) := by
  cases bytes with
  | nil => exact .empty
  | cons c bytes =>
    rw [front]
    split
    next root => exact root ▸ .root
    next apart =>
      split
      next current => exact current.1 ▸ .current current.2
      next named =>
        obtain ⟨first, more, split⟩ := exists_segments bytes
        have whole : segments (c :: bytes) = (c :: first) :: more := by
          rw [segments_cons, if_neg apart, split, List.modifyHead_cons]
        refine .name whole (isBlank_eq_false_iff.mpr ⟨by simp, fun alone => named ?_⟩)
        rw [List.cons.injEq] at alone
        exact ⟨alone.1, segments_eq_nil_cons_iff.mp ⟨more, alone.2 ▸ split⟩⟩

/-- A path whose first segment is not blank opens with it. -/
theorem front_of_name (split : segments bytes = first :: more) (filled : isBlank first = false) :
    front bytes = ([], bytes) := by
  obtain ⟨nonempty, notDot⟩ := isBlank_eq_false_iff.mp filled
  have opening := fronted bytes
  generalize front bytes = opened at opening
  cases opening with
  | empty =>
    cases split
    exact absurd rfl nonempty
  | root =>
    rw [segments_cons, if_pos rfl] at split
    cases split
    exact absurd rfl nonempty
  | current closed =>
    obtain ⟨_, behind⟩ := segments_eq_nil_cons_iff.mpr closed
    rw [segments_cons, if_neg (by decide), behind] at split
    cases split
    exact absurd rfl notDot
  | name => rfl

theorem front_of_root (rest : List UInt8) : front (slash :: rest) = ([.root], rest) := rfl

theorem front_of_current {rest : List UInt8} (closed : rest.head?.getD slash = slash) :
    front (dot :: rest) = ([.current], rest) := by
  rw [front, if_neg (by decide), if_pos ⟨rfl, closed⟩]

theorem length_front_le (bytes : List UInt8) : (front bytes).1.length ≤ 1 := by
  have opening := fronted bytes
  generalize front bytes = opened at opening
  cases opening <;> simp

end Front

section Components

/-- The components among segments. -/
def componentsOf (parts : List (List UInt8)) : List Component :=
  (parts.filter fun s => !isBlank s).map component

theorem components_eq (p : Path) :
    p.components = (front p.bytes).1 ++ componentsOf (segments (front p.bytes).2) := rfl

theorem componentsOf_append (parts parts' : List (List UInt8)) :
    componentsOf (parts ++ parts') = componentsOf parts ++ componentsOf parts' := by
  rw [componentsOf, List.filter_append, List.map_append]
  rfl

theorem componentsOf_cons_of_blank (blank : isBlank segment = true) :
    componentsOf (segment :: parts) = componentsOf parts := by
  simp [componentsOf, blank]

theorem componentsOf_cons_of_filled (filled : isBlank segment = false) :
    componentsOf (segment :: parts) = component segment :: componentsOf parts := by
  simp [componentsOf, filled]

theorem componentsOf_eq_nil_of_blank (blank : ∀ s ∈ parts, isBlank s = true) :
    componentsOf parts = [] := by
  simpa [componentsOf] using blank

/-- Blank segments come off on either side. -/
theorem componentsOf_dropWhile (parts : List (List UInt8)) :
    componentsOf (parts.dropWhile isBlank) = componentsOf parts := by
  conv_rhs => rw [← List.takeWhile_append_dropWhile (p := isBlank) (l := parts)]
  rw [componentsOf_append, componentsOf_eq_nil_of_blank fun _ => List.mem_takeWhile_imp,
    List.nil_append]

theorem componentsOf_rdropWhile (parts : List (List UInt8)) :
    componentsOf (parts.rdropWhile isBlank) = componentsOf parts := by
  conv_rhs => rw [← List.rdropWhile_append_rtakeWhile (p := isBlank) (l := parts)]
  rw [componentsOf_append, componentsOf_eq_nil_of_blank fun _ => List.mem_rtakeWhile_imp,
    List.append_nil]

/-- What stands in front of a slash has its components whatever stands behind it. -/
theorem components_append_slash (a : List UInt8) :
    ∃ lead, (a ≠ [] → components ⟨a⟩ = lead) ∧
      ∀ b, components ⟨a ++ slash :: b⟩ = lead ++ componentsOf (segments b) := by
  simp only [components_eq]
  have opening := fronted a
  generalize front a = opened at opening
  cases opening with
  | empty => exact ⟨[.root], fun nonempty => absurd rfl nonempty, fun b => rfl⟩
  | @root rest =>
    refine ⟨.root :: componentsOf (segments rest), fun _ => rfl, fun b => ?_⟩
    rw [List.cons_append, front_of_root, segments_append_slash, componentsOf_append]
    rfl
  | @current rest closed =>
    refine ⟨.current :: componentsOf (segments rest), fun _ => rfl, fun b => ?_⟩
    have closed : (rest ++ slash :: b).head?.getD slash = slash := by
      cases rest with
      | nil => rfl
      | cons c rest => exact closed
    rw [List.cons_append, front_of_current closed, segments_append_slash, componentsOf_append]
    rfl
  | name split filled =>
    refine ⟨componentsOf (segments a), fun _ => rfl, fun b => ?_⟩
    have whole := segments_append_slash a b
    rw [front_of_name (by rw [whole, split, List.cons_append]) filled, whole, componentsOf_append]
    rfl

/-- A name behind a directory has no share in the components in front of it. -/
theorem components_append_of_dir {dir : List UInt8} (isDir : dir = [] ∨ ∃ a, dir = a ++ [slash]) :
    ∃ lead, ∀ b first more, segments b = first :: more → isBlank first = false →
      components ⟨dir ++ b⟩ = lead ++ component first :: componentsOf more := by
  rcases isDir with rfl | ⟨a, rfl⟩
  · refine ⟨[], fun b first more split filled => ?_⟩
    rw [List.nil_append, List.nil_append, components_eq, front_of_name split filled, split,
      componentsOf_cons_of_filled filled, List.nil_append]
  · obtain ⟨lead, -, behind⟩ := components_append_slash a
    refine ⟨lead, fun b first more split filled => ?_⟩
    rw [List.append_assoc, List.singleton_append, behind, split, componentsOf_cons_of_filled filled]

/-- A longer name is another component. -/
theorem not_prefix_of_longer_name {dir name more : List UInt8}
    (isDir : dir = [] ∨ ∃ a, dir = a ++ [slash]) (filled : isBlank name = false)
    (apart : slash ∉ name) (longer : more.head?.getD slash ≠ slash) :
    ¬ components ⟨dir ++ name⟩ <+: components ⟨dir ++ (name ++ more)⟩ := by
  obtain ⟨lead, behind⟩ := components_append_of_dir isDir
  obtain ⟨next, others, split⟩ := exists_segments more
  have alone : segments name = [name] := by
    rw [segments_eq_splitOn, List.splitOn_eq_singleton apart]
  have joined : segments (name ++ more) = (name ++ next) :: others := by
    rw [segments_eq_splitOn, splitOn_append_of_notMem apart, ← segments_eq_splitOn, split,
      List.modifyHead_cons]
  obtain ⟨nonempty, notDot⟩ := isBlank_eq_false_iff.mp filled
  have filled_joined : isBlank (name ++ next) = false := by
    refine isBlank_eq_false_iff.mpr ⟨by simp [nonempty], fun same => ?_⟩
    rcases List.append_eq_singleton_iff.mp same with ⟨none, -⟩ | ⟨dots, -⟩
    · exact nonempty none
    · exact notDot dots
  rw [behind _ _ _ alone filled, behind _ _ _ joined filled_joined,
    List.prefix_append_right_inj, List.cons_prefix_cons, component_inj]
  rintro ⟨same, -⟩
  have none : next = [] := by simpa using same.symm
  exact longer (segments_eq_nil_cons_iff.mp ⟨others, none ▸ split⟩)

theorem components_eq_nil_iff {p : Path} : p.components = [] ↔ p.bytes = [] := by
  obtain ⟨bytes⟩ := p
  rw [components_eq]
  dsimp only
  have opening := fronted bytes
  generalize front bytes = opened at opening
  cases opening with
  | empty => exact iff_of_true rfl rfl
  | root => simp
  | current => simp
  | name split filled =>
    have nonempty : bytes ≠ [] := by
      rintro rfl
      cases split
      cases filled
    simp [split, componentsOf_cons_of_filled filled, nonempty]

end Components

section Rest

variable {wanted : List Component} {p base : Path}

/-- What is left comes behind segments with just the components that were to be dropped. -/
theorem dropComponents_eq_some (h : dropComponents wanted parts = some rest) :
    ∃ taken, parts = taken ++ rest ∧ componentsOf taken = wanted := by
  induction wanted generalizing parts with
  | nil =>
    rw [dropComponents, Option.some.injEq] at h
    exact ⟨[], h, rfl⟩
  | cons c wanted ih =>
    rw [dropComponents] at h
    split at h
    · cases h
    next part others shown =>
      split at h
      next same =>
        obtain ⟨taken, rfl, listed⟩ := ih h
        have filled : isBlank part = false := by
          simpa [shown] using List.head?_dropWhile_not isBlank parts
        refine ⟨parts.takeWhile isBlank ++ part :: taken, ?_, ?_⟩
        · rw [List.append_assoc, List.cons_append, ← shown, List.takeWhile_append_dropWhile]
        · rw [componentsOf_append, componentsOf_eq_nil_of_blank fun _ => List.mem_takeWhile_imp,
            componentsOf_cons_of_filled filled, listed, same, List.nil_append]
      · cases h

theorem exists_dropComponents (first : wanted <+: componentsOf parts) :
    ∃ rest, dropComponents wanted parts = some rest := by
  induction wanted generalizing parts with
  | nil => exact ⟨parts, rfl⟩
  | cons c wanted ih =>
    rw [dropComponents]
    rw [← componentsOf_dropWhile] at first
    have head := List.head?_dropWhile_not isBlank parts
    cases shown : parts.dropWhile isBlank with
    | nil =>
      rw [shown] at first
      cases List.prefix_nil.mp first
    | cons part others =>
      rw [shown] at first head
      rw [componentsOf_cons_of_filled head, List.cons_prefix_cons] at first
      dsimp only
      rw [if_pos first.1.symm]
      exact ih first.2

/-- Segments without the blank ones on the outside. -/
def trimmed (parts : List (List UInt8)) : List (List UInt8) :=
  (parts.dropWhile isBlank).rdropWhile isBlank

theorem infix_trimmed (parts : List (List UInt8)) : trimmed parts <:+: parts :=
  (List.rdropWhile_prefix isBlank _).isInfix.trans (List.dropWhile_suffix isBlank).isInfix

theorem componentsOf_trimmed (parts : List (List UInt8)) :
    componentsOf (trimmed parts) = componentsOf parts := by
  rw [trimmed, componentsOf_rdropWhile, componentsOf_dropWhile]

theorem head_trimmed (split : trimmed parts = first :: more) : isBlank first = false := by
  obtain ⟨behind, whole⟩ := List.rdropWhile_prefix isBlank (parts.dropWhile isBlank)
  rw [← trimmed, split] at whole
  simpa [← whole] using List.head?_dropWhile_not isBlank parts

theorem last_trimmed {front : List (List UInt8)} {last : List UInt8}
    (split : trimmed parts = front ++ [last]) : isBlank last = false := by
  have nonempty : trimmed parts ≠ [] := by simp [split]
  have kept : ¬ isBlank ((trimmed parts).getLast nonempty) = true :=
    List.rdropWhile_last_not isBlank _ nonempty
  have same : (trimmed parts).getLast nonempty = last := by simp [split]
  rwa [same, Bool.not_eq_true] at kept

/-- Trimmed segments are the components of the path that they make up. -/
theorem components_join_trimmed (apart : ∀ s ∈ parts, slash ∉ s) :
    components ⟨join (trimmed parts)⟩ = componentsOf parts := by
  rw [← componentsOf_trimmed]
  cases split : trimmed parts with
  | nil => rfl
  | cons first more =>
    have whole : segments (join (first :: more)) = first :: more :=
      segments_join (by simp) fun s member => apart s ((infix_trimmed parts).subset (split ▸ member))
    rw [components_eq, front_of_name whole (head_trimmed split), whole, List.nil_append]

/-- What is left of a path is made up of the last of its segments, those in front of which have the
components of the other path. -/
theorem rest?_eq_some {r : Path} (h : p.rest? base = some r) :
    ∃ taken rest, segments (front p.bytes).2 = taken ++ rest ∧
      base.components = (front p.bytes).1 ++ componentsOf taken ∧ r = ⟨join (trimmed rest)⟩ := by
  rw [rest?] at h
  dsimp only at h
  split at h
  next opens =>
    obtain ⟨rest, dropped, made⟩ := Option.map_eq_some_iff.mp h
    obtain ⟨taken, split, listed⟩ := dropComponents_eq_some dropped
    refine ⟨taken, rest, split, ?_, made.symm⟩
    calc base.components
      _ = base.components.take (front p.bytes).1.length ++
          base.components.drop (front p.bytes).1.length := (List.take_append_drop ..).symm
      _ = (front p.bytes).1 ++ componentsOf taken := by rw [opens, listed]
  · cases h

theorem components_rest? {r : Path} (h : p.rest? base = some r) :
    base.components ++ r.components = p.components := by
  obtain ⟨taken, rest, split, listed, rfl⟩ := rest?_eq_some h
  have apart : ∀ s ∈ rest, slash ∉ s := fun s member =>
    slash_notMem_of_mem_segments (split ▸ List.mem_append_right taken member)
  rw [components_join_trimmed apart, listed, components_eq, split, componentsOf_append,
    List.append_assoc]

theorem head?_join (nonempty : segment ≠ []) : (join (segment :: more)).head? = segment.head? := by
  cases more with
  | nil => rw [join, List.intercalate_singleton]
  | cons next more =>
    rw [join, List.intercalate_cons_cons, List.append_assoc, List.head?_append_of_ne_nil _ nonempty]

theorem getLast?_join {front : List (List UInt8)} (nonempty : segment ≠ []) :
    (join (front ++ [segment])).getLast? = segment.getLast? := by
  induction front with
  | nil => rw [join, List.nil_append, List.intercalate_singleton]
  | cons next front ih =>
    rw [join, List.cons_append, List.intercalate_cons_of_ne_nil (by simp), ← join,
      List.getLast?_append, ih, Option.or_of_isSome (by simpa using nonempty)]

/-- What is left has no slash on the outside. -/
theorem ends_rest? {r : Path} (h : p.rest? base = some r) :
    r.bytes.head? ≠ some slash ∧ r.bytes.getLast? ≠ some slash := by
  obtain ⟨taken, rest, split, -, rfl⟩ := rest?_eq_some h
  have apart : ∀ s ∈ trimmed rest, slash ∉ s := fun s member =>
    slash_notMem_of_mem_segments
      (split ▸ List.mem_append_right taken ((infix_trimmed rest).subset member))
  constructor
  · cases first : trimmed rest with
    | nil => simp [join]
    | cons segment more =>
      rw [head?_join (isBlank_eq_false_iff.mp (head_trimmed first)).1]
      intro outside
      exact apart segment (by simp [first]) (List.mem_of_head? outside)
  · rcases List.eq_nil_or_concat (trimmed rest) with none | ⟨front, segment, last⟩
    · simp [none, join]
    · rw [List.concat_eq_append] at last
      rw [last, getLast?_join (isBlank_eq_false_iff.mp (last_trimmed last)).1]
      intro outside
      exact apart segment (by simp [last]) (List.mem_of_getLast? outside)

theorem exists_rest? (nonempty : base.components ≠ [])
    (first : base.components <+: p.components) : ∃ r, p.rest? base = some r := by
  rw [components_eq p] at first
  have long : (front p.bytes).1.length ≤ base.components.length :=
    (length_front_le p.bytes).trans (List.length_pos_iff.mpr nonempty)
  obtain ⟨wanted, same⟩ := List.prefix_of_prefix_length_le (List.prefix_append ..) first long
  rw [← same, List.prefix_append_right_inj] at first
  obtain ⟨rest, dropped⟩ := exists_dropComponents first
  rw [rest?]
  dsimp only
  rw [← same, if_pos List.take_left, List.drop_left, dropped]
  exact ⟨_, rfl⟩

end Rest

end BillOfMaterials.Path
