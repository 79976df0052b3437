import BillOfMaterials.Proofs.Config.Validity
import BillOfMaterials.Proofs.Path.Relative

/-!
# Paths that climb

Two dots in a path lead back up, so that a path can begin with the components of a directory and
still lead out of it. The working directory of a valid configuration has none, but nothing is asked
of the paths that are told from it.
-/
namespace BillOfMaterials

def Component.isName : Component → Bool
  | .normal _ => true
  | _ => false

namespace Path

/-- Where a component leads from a directory. A directory is given by the names on the way to it
from the root, and there is no way up from the root. -/
def enter (dir : List (List UInt8)) : Component → List (List UInt8)
  | .root => []
  | .current => dir
  | .parent => dir.dropLast
  | .normal name => dir ++ [name]

def follow (dir : List (List UInt8)) (way : List Component) : List (List UInt8) :=
  way.foldl enter dir

/-- Where a path leads by its text alone. -/
def resolve (p : Path) : List (List UInt8) := follow [] p.components

/-- The path leads to another place than the base and those below it. -/
def Outside (p base : Path) : Prop := ¬ base.resolve <+: p.resolve

instance (p base : Path) : Decidable (p.Outside base) := inferInstanceAs (Decidable (¬ _))

/-- Somewhere on the way from a directory the directory is left. -/
def Climbs (dir : List (List UInt8)) (way : List Component) : Prop :=
  ∃ front, front <+: way ∧ ¬ dir <+: follow dir front

/-- Nothing but names and two dots. -/
def Onward (way : List Component) : Prop := ∀ c ∈ way, c = .parent ∨ ∃ name, c = .normal name

/-- How often the way goes up. -/
def ups (way : List Component) : Nat := way.count .parent

/-- How often the way goes down to a name. -/
def downs (way : List Component) : Nat := way.countP Component.isName

/-- Somewhere on the way it has gone up more often than down. -/
def Overdrawn (way : List Component) : Prop := ∃ front, front <+: way ∧ downs front < ups front

def IsAbsolute (p : Path) : Prop := p.bytes.head? = some slash

instance (p : Path) : Decidable p.IsAbsolute := inferInstanceAs (Decidable (_ = _))

section Following

variable {dir : List (List UInt8)} {way front : List Component}

theorem follow_append (dir : List (List UInt8)) (way way' : List Component) :
    follow dir (way ++ way') = follow (follow dir way) way' := List.foldl_append

theorem follow_concat (dir : List (List UInt8)) (way : List Component) (c : Component) :
    follow dir (way ++ [c]) = enter (follow dir way) c := List.foldl_concat ..

theorem follow_names (dir names : List (List UInt8)) :
    follow dir (names.map .normal) = dir ++ names := by
  induction names generalizing dir with
  | nil => exact (List.append_nil dir).symm
  | cons name names ih =>
    rw [List.map_cons, follow, List.foldl_cons, ← follow, enter, ih, List.append_assoc,
      List.singleton_append]

theorem tally_up (way : List Component) :
    downs (way ++ [.parent]) = downs way ∧ ups (way ++ [.parent]) = ups way + 1 := by
  simp [downs, ups, List.countP_append, Component.isName]

theorem tally_down (way : List Component) (name : List UInt8) :
    downs (way ++ [.normal name]) = downs way + 1 ∧ ups (way ++ [.normal name]) = ups way := by
  simp [downs, ups, List.countP_append, Component.isName]

theorem Overdrawn.of_front (among : front <+: way) (overdrawn : Overdrawn front) :
    Overdrawn way := by
  obtain ⟨before, first, fewer⟩ := overdrawn
  exact ⟨before, first.trans among, fewer⟩

theorem Onward.of_front (among : front <+: way) (onward : Onward way) : Onward front :=
  fun c member => onward c (among.subset member)

/-- While it goes down for all the times that it goes up, the way leads below the directory, by as
much as it has gone down more often. -/
theorem exists_below (onward : Onward way) (covered : ¬ Overdrawn way) (dir : List (List UInt8)) :
    ∃ below, follow dir way = dir ++ below ∧ below.length + ups way = downs way := by
  induction way using List.reverseRecOn with
  | nil => exact ⟨[], (List.append_nil dir).symm, rfl⟩
  | append_singleton way c ih =>
    have before : way <+: way ++ [c] := List.prefix_append ..
    obtain ⟨below, leads, depth⟩ :=
      ih (onward.of_front before) fun early => covered (early.of_front before)
    rcases onward c (by simp) with rfl | ⟨name, rfl⟩
    · obtain ⟨down, up⟩ := tally_up way
      have enough : ups (way ++ [.parent]) ≤ downs (way ++ [.parent]) :=
        Nat.le_of_not_lt fun fewer => covered ⟨_, List.prefix_rfl, fewer⟩
      have deep : 0 < below.length := by omega
      refine ⟨below.dropLast, ?_, ?_⟩
      · rw [follow_concat, leads, enter,
          List.dropLast_append_of_ne_nil (List.length_pos_iff.mp deep)]
      · rw [List.length_dropLast]
        omega
    · obtain ⟨down, up⟩ := tally_down way name
      refine ⟨below ++ [name], ?_, ?_⟩
      · rw [follow_concat, leads, enter, List.append_assoc]
      · rw [List.length_append, List.length_singleton]
        omega

theorem not_prefix_dropLast (deep : dir ≠ []) : ¬ dir <+: dir.dropLast := by
  intro inside
  have shorter := inside.length_le
  have := List.length_pos_iff.mpr deep
  rw [List.length_dropLast] at shorter
  omega

/-- Where it goes up more often than down for the first time, the way leaves the directory. -/
theorem climbs_of_overdrawn (onward : Onward way) (deep : dir ≠ []) (overdrawn : Overdrawn way) :
    Climbs dir way := by
  induction way using List.reverseRecOn with
  | nil =>
    obtain ⟨front, none, fewer⟩ := overdrawn
    rw [List.prefix_nil.mp none] at fewer
    cases fewer
  | append_singleton way c ih =>
    have before : way <+: way ++ [c] := List.prefix_append ..
    by_cases early : Overdrawn way
    · obtain ⟨front, among, left⟩ := ih (onward.of_front before) early
      exact ⟨front, among.trans before, left⟩
    · obtain ⟨below, leads, depth⟩ := exists_below (onward.of_front before) early dir
      have fewer : downs (way ++ [c]) < ups (way ++ [c]) := by
        obtain ⟨front, among, fewer⟩ := overdrawn
        rcases List.prefix_concat_iff.mp among with rfl | earlier
        · exact fewer
        · exact absurd ⟨front, earlier, fewer⟩ early
      rcases onward c (by simp) with rfl | ⟨name, rfl⟩
      · obtain ⟨down, up⟩ := tally_up way
        have level : below = [] := List.eq_nil_of_length_eq_zero (by omega)
        refine ⟨_, List.prefix_rfl, ?_⟩
        rw [follow_concat, leads, level, List.append_nil, enter]
        exact not_prefix_dropLast deep
      · obtain ⟨down, up⟩ := tally_down way name
        omega

/-- The root alone is never left. -/
theorem climbs_iff (onward : Onward way) : Climbs dir way ↔ dir ≠ [] ∧ Overdrawn way := by
  constructor
  · rintro ⟨front, among, left⟩
    constructor
    · rintro rfl
      exact left List.nil_prefix
    · by_contra covered
      obtain ⟨below, leads, -⟩ := exists_below (onward.of_front among)
        (fun early => covered (early.of_front among)) dir
      exact left (leads ▸ List.prefix_append ..)
  · rintro ⟨deep, overdrawn⟩
    exact climbs_of_overdrawn onward deep overdrawn

theorem exists_names (onward : Onward way) (level : .parent ∉ way) :
    ∃ names : List (List UInt8), way = names.map .normal := by
  induction way with
  | nil => exact ⟨[], rfl⟩
  | cons c way ih =>
    rw [List.mem_cons, not_or] at level
    obtain ⟨names, rfl⟩ := ih (fun d member => onward d (List.mem_cons_of_mem _ member)) level.2
    rcases onward c (List.mem_cons_self ..) with rfl | ⟨name, rfl⟩
    · exact absurd rfl level.1
    · exact ⟨name :: names, rfl⟩

end Following

section Absolute

variable {p base r : Path}

theorem onward_componentsOf (parts : List (List UInt8)) : Onward (componentsOf parts) := by
  intro c member
  obtain ⟨segment, -, rfl⟩ := List.mem_map.mp member
  rw [component]
  split
  · exact .inl rfl
  · exact .inr ⟨segment, rfl⟩

theorem IsAbsolute.components (absolute : p.IsAbsolute) :
    ∃ way, p.components = .root :: way ∧ Onward way := by
  obtain ⟨bytes⟩ := p
  obtain ⟨rest, rfl⟩ := List.head?_eq_some_iff.mp absolute
  rw [components_eq]
  exact ⟨componentsOf (segments rest), rfl, onward_componentsOf _⟩

/-- Without two dots the names on the way are those in the path. -/
theorem IsAbsolute.components_of_level (absolute : p.IsAbsolute)
    (level : .parent ∉ p.components) : p.components = .root :: p.resolve.map .normal := by
  obtain ⟨way, split, onward⟩ := absolute.components
  rw [split, List.mem_cons, not_or] at level
  obtain ⟨names, rfl⟩ := exists_names onward level.2
  have leads : p.resolve = names := by
    rw [resolve, split, follow, List.foldl_cons, ← follow, enter, follow_names, List.nil_append]
  rw [split, leads]

theorem outside_iff_of_level (absolute : p.IsAbsolute) (level : .parent ∉ p.components)
    (rooted : base.IsAbsolute) (plain : .parent ∉ base.components) :
    p.Outside base ↔ ¬ base.components <+: p.components := by
  have apart : Function.Injective Component.normal := fun _ _ => Component.normal.inj
  rw [Outside, absolute.components_of_level level, rooted.components_of_level plain,
    List.cons_prefix_cons, List.prefix_map_iff_of_injective apart, and_iff_right rfl]

theorem resolve_eq_follow (split : base.components ++ r.components = p.components) :
    p.resolve = follow base.resolve r.components := by
  rw [resolve, resolve, ← split, follow_append]

theorem onward_of_split (rooted : base.IsAbsolute) (absolute : p.IsAbsolute)
    (split : base.components ++ r.components = p.components) : Onward r.components := by
  obtain ⟨names, opens, -⟩ := rooted.components
  obtain ⟨way, shown, onward⟩ := absolute.components
  rw [opens, shown, List.cons_append, List.cons.injEq] at split
  exact fun c member => onward c (split.2 ▸ List.mem_append_right names member)

/-- The path that goes up once from the base. -/
def up (base : Path) : Path := ⟨base.bytes ++ [slash, dot, dot]⟩

theorem components_up (rooted : base.IsAbsolute) :
    base.up.components = base.components ++ [.parent] := by
  obtain ⟨bytes⟩ := base
  obtain ⟨lead, whole, behind⟩ := components_append_slash bytes
  have nonempty : bytes ≠ [] := by
    rintro rfl
    cases rooted
  rw [up, behind, whole nonempty]
  rfl

theorem IsAbsolute.up (rooted : base.IsAbsolute) : base.up.IsAbsolute := by
  obtain ⟨rest, shown⟩ := List.head?_eq_some_iff.mp rooted
  rw [IsAbsolute, Path.up, shown]
  rfl

theorem outside_up (rooted : base.IsAbsolute) (deep : base.resolve ≠ []) :
    base.up.Outside base := by
  have leads : base.up.resolve = base.resolve.dropLast := by
    rw [resolve, components_up rooted, follow_concat, ← resolve, enter]
  rw [Outside, leads]
  exact not_prefix_dropLast deep

end Absolute

end Path

namespace Config

open BillOfMaterials.Path

variable {c : Config} {p r : Path}

/-- The working directory. -/
def dir (c : Config) : Path := .ofString c.spdx.workDir

/-- How a path is told under the configuration. -/
def tell (c : Config) (p : Path) : String × List Event := (Options.ofConfig c.spdx).relativePath p

/-- The path is told as it is, with a warning. -/
def Warned (c : Config) (p : Path) : Prop :=
  c.tell p = (p.display, [.outsideWorkDir p.display c.spdx.workDir])

instance (c : Config) (p : Path) : Decidable (c.Warned p) := inferInstanceAs (Decidable (_ = _))

/-- The path is told by what is left of it behind the working directory, without a warning. -/
structure Stripped (c : Config) (p r : Path) : Prop where
  told : c.tell p = (r.display, [])
  components : c.dir.components ++ r.components = p.components

theorem parent_notMem_dir (valid : c.validate = .ok ()) : .parent ∉ c.dir.components := by
  rw [dir, parent_mem_components_ofString]
  exact validate_eq_ok_iff.mp valid .workDir

theorem resolve_dir_eq_nil_iff (valid : c.validate = .ok ()) (rooted : c.dir.IsAbsolute) :
    c.dir.resolve = [] ↔ c.dir.components = [.root] := by
  simp [rooted.components_of_level (parent_notMem_dir valid)]

theorem components_dir_ne_nil (rooted : c.dir.IsAbsolute) : c.dir.components ≠ [] := by
  obtain ⟨way, split, -⟩ := rooted.components
  rw [split]
  exact List.cons_ne_nil _ _

theorem warned_of_outside (rooted : c.dir.IsAbsolute)
    (outside : ¬ c.dir.components <+: p.components) : c.Warned p := by
  have told := Options.relativePath_of_outside (Options.ofConfig c.spdx)
    (components_dir_ne_nil rooted) outside
  rw [Options.ofConfig, display_ofString] at told
  exact told

theorem exists_stripped (rooted : c.dir.IsAbsolute)
    (first : c.dir.components <+: p.components) : ∃ r, c.Stripped p r := by
  obtain ⟨r, left⟩ := exists_rest? (components_dir_ne_nil rooted) first
  exact ⟨r, Options.relativePath_of_rest _ (components_dir_ne_nil rooted) left,
    components_rest? left⟩

theorem Stripped.not_warned (stripped : c.Stripped p r) : ¬ c.Warned p := by
  rw [Warned, stripped.told]
  simp

theorem warned_iff (rooted : c.dir.IsAbsolute) :
    c.Warned p ↔ ¬ c.dir.components <+: p.components := by
  refine ⟨fun warned first => ?_, warned_of_outside rooted⟩
  obtain ⟨r, stripped⟩ := exists_stripped rooted first
  exact stripped.not_warned warned

theorem Stripped.climbs_iff (stripped : c.Stripped p r) (valid : c.validate = .ok ())
    (rooted : c.dir.IsAbsolute) (absolute : p.IsAbsolute) :
    Climbs c.dir.resolve r.components ↔ c.dir.components ≠ [.root] ∧ Overdrawn r.components := by
  rw [Path.climbs_iff (onward_of_split rooted absolute stripped.components), Ne,
    resolve_dir_eq_nil_iff valid rooted]

theorem Stripped.climbs_of_outside (stripped : c.Stripped p r) (outside : p.Outside c.dir) :
    Climbs c.dir.resolve r.components := by
  refine ⟨r.components, List.prefix_rfl, ?_⟩
  rw [← resolve_eq_follow stripped.components]
  exact outside

/-- The path up from a working directory with a name leads out of it and is told as one inside. -/
theorem exists_stripped_outside (valid : c.validate = .ok ()) (rooted : c.dir.IsAbsolute)
    (named : c.dir.components ≠ [.root]) :
    ∃ p r : Path, p.IsAbsolute ∧ p.Outside c.dir ∧ c.Stripped p r := by
  obtain ⟨r, stripped⟩ := exists_stripped (p := c.dir.up) rooted ⟨_, (components_up rooted).symm⟩
  have deep : c.dir.resolve ≠ [] := (resolve_dir_eq_nil_iff valid rooted).not.mpr named
  exact ⟨_, r, rooted.up, outside_up rooted deep, stripped⟩

/-- Under a valid configuration with an absolute working directory, an absolute path is told as it
is, with a warning, if it does not begin with the components of the directory, and by what is left
behind them otherwise. From the directory what is left leads where the path does. It leaves the
directory on its way if the directory has a name and there is a place up to which it goes up more
often than down. So a path that leads out of the directory is told with a warning unless it does
that, in particular if it never goes up; and only with the root for a working directory is every
path that leads out told so. -/
theorem every_outside_warned_iff_root (valid : c.validate = .ok ()) (rooted : c.dir.IsAbsolute) :
    (∀ p : Path, p.IsAbsolute →
      (¬ c.dir.components <+: p.components → c.Warned p) ∧
      (c.dir.components <+: p.components → ∃ r, c.Stripped p r) ∧
      (∀ r, c.Stripped p r → p.resolve = follow c.dir.resolve r.components ∧
        (Climbs c.dir.resolve r.components ↔
          c.dir.components ≠ [.root] ∧ Overdrawn r.components)) ∧
      (p.Outside c.dir → c.Warned p ∨ ∃ r, c.Stripped p r ∧ Overdrawn r.components) ∧
      (.parent ∉ p.components → (p.Outside c.dir ↔ c.Warned p))) ∧
    ((∀ p : Path, p.IsAbsolute → p.Outside c.dir → c.Warned p) ↔ c.dir.components = [.root]) ∧
    ((∀ p r : Path, p.IsAbsolute → c.Stripped p r → ¬ Climbs c.dir.resolve r.components) ↔
      c.dir.components = [.root]) := by
  refine ⟨fun p absolute => ⟨warned_of_outside rooted, exists_stripped rooted, fun r stripped =>
    ⟨resolve_eq_follow stripped.components, stripped.climbs_iff valid rooted absolute⟩, ?_, ?_⟩,
    ⟨?_, ?_⟩, ?_, ?_⟩
  · intro outside
    by_cases first : c.dir.components <+: p.components
    · obtain ⟨r, stripped⟩ := exists_stripped rooted first
      have climbs := stripped.climbs_of_outside outside
      exact .inr ⟨r, stripped, ((stripped.climbs_iff valid rooted absolute).mp climbs).2⟩
    · exact .inl (warned_of_outside rooted first)
  · intro level
    rw [outside_iff_of_level absolute level rooted (parent_notMem_dir valid), warned_iff rooted]
  · intro safe
    by_contra named
    obtain ⟨p, r, absolute, outside, stripped⟩ := exists_stripped_outside valid rooted named
    exact stripped.not_warned (safe p absolute outside)
  · intro root p absolute outside
    rw [Outside, (resolve_dir_eq_nil_iff valid rooted).mpr root] at outside
    exact absurd List.nil_prefix outside
  · intro safe
    by_contra named
    obtain ⟨p, r, absolute, outside, stripped⟩ := exists_stripped_outside valid rooted named
    exact safe p r absolute stripped (stripped.climbs_of_outside outside)
  · intro root p r absolute stripped climbs
    exact ((stripped.climbs_iff valid rooted absolute).mp climbs).1 root

/-- Going up and coming back again is no way out, but it leaves the directory all the same. -/
theorem every_outside_warned_iff_root_of_build :
    let c : Config := { spdx := { workDir := "/build" } }
    let p := ofString "/build/lib/../../build/app"
    c.validate = .ok () ∧ c.dir.IsAbsolute ∧
      (¬ ∀ p : Path, p.IsAbsolute → p.Outside c.dir → c.Warned p) ∧
      ¬ p.Outside c.dir ∧ ∃ r, c.Stripped p r ∧ Climbs c.dir.resolve r.components := by
  intro c p
  have valid : c.validate = .ok () := by decide +kernel
  have rooted : c.dir.IsAbsolute := by decide +kernel
  obtain ⟨each, outside_iff, climbs_iff⟩ := every_outside_warned_iff_root valid rooted
  have named : c.dir.components ≠ [.root] := by decide +kernel
  refine ⟨valid, rooted, outside_iff.not.mpr named, by decide +kernel, ?_⟩
  obtain ⟨-, strips, leads, -⟩ := each p (by decide +kernel)
  obtain ⟨r, stripped⟩ := strips (by decide +kernel)
  have split : c.dir.components ++ r.components = c.dir.components ++
      (ofString "lib/../../build/app").components :=
    stripped.components.trans (by decide +kernel)
  refine ⟨r, stripped, (leads r stripped).2.mpr ⟨named, ?_⟩⟩
  rw [List.append_cancel_left split]
  exact ⟨(ofString "lib/../..").components, by decide +kernel, by decide +kernel⟩

/-- The path is told from the working directory although it leads out of it. -/
theorem passwd_told_from_build :
    let c : Config := { spdx := { workDir := "/build" } }
    let p := ofString "/build/../etc/passwd"
    c.validate = .ok () ∧ c.dir.IsAbsolute ∧ p.IsAbsolute ∧ p.Outside c.dir ∧
      c.tell p = ("../etc/passwd", []) ∧ ¬ c.Warned p := by
  decide +kernel

end Config

end BillOfMaterials
