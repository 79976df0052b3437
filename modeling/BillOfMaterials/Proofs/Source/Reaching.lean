import BillOfMaterials.FileSystem
import BillOfMaterials.Proofs.Path.Relative

/-!
# How files are reached

A file is read at the absolute path of its names. If it is below the working directory, it is read
at the path of the names behind that directory as well.
-/
namespace BillOfMaterials

open BillOfMaterials.Path

/-- A name that an entry of a directory can have. -/
structure IsEntryName (name : FileName) : Prop where
  filled : name ≠ []
  notDot : name ≠ [dot]
  notDots : name ≠ [dot, dot]
  noSlash : slash ∉ name
  noNul : 0 ∉ name
  short : name.length ≤ FileSystem.maxNameLength

namespace FileSystem

/-- The file system has a file under the names, and no other file is in the way. -/
structure HasFile (fs : FileSystem) (names : List FileName) (contents : Contents) : Prop where
  listed : fs.files.lookup names = some contents
  clear : ∀ front, front <+: names → front ≠ names → fs.files.lookup front = none
  named : ∀ name ∈ names, IsEntryName name

variable {fs : FileSystem} {front below names : List FileName} {contents : Contents}

/-- What lies on the way to a file is a directory. -/
theorem HasFile.isDirectory (h : fs.HasFile (front ++ below) contents) (further : below ≠ []) :
    fs.isDirectory front = true := by
  obtain ⟨before, behind, split, -⟩ := List.lookup_eq_some_iff.mp h.listed
  have among : (front ++ below, contents) ∈ fs.files := by simp [split]
  have shorter : front.length < (front ++ below).length := by
    rw [List.length_append]
    exact Nat.lt_add_of_pos_right (List.length_pos_iff.mpr further)
  rw [FileSystem.isDirectory, Bool.or_eq_true, List.any_eq_true]
  refine .inr ⟨_, among, ?_⟩
  rw [Bool.and_eq_true, List.isPrefixOf_iff_prefix, decide_eq_true_eq]
  exact ⟨List.prefix_append .., shorter⟩

theorem follow_of_isEntryName {name : FileName} (h : IsEntryName name) :
    fs.follow (.directory front) name =
      match fs.entry? (front ++ [name]) with
      | some next => .ok next
      | none => .error .notFound := by
  have short := Nat.not_lt.mpr h.short
  cases found : fs.entry? (front ++ [name]) <;> simp [follow, h.notDot, h.notDots, short, found]

theorem HasFile.followAll (h : fs.HasFile (front ++ below) contents) (further : below ≠ []) :
    fs.followAll (.directory front) below = .ok (.file contents) := by
  induction below generalizing front with
  | nil => exact absurd rfl further
  | cons name more ih =>
    have named : IsEntryName name := h.named name (by simp)
    rw [FileSystem.followAll, follow_of_isEntryName named, entry?]
    cases more with
    | nil =>
      rw [h.listed]
      rfl
    | cons next more =>
      have whole : front ++ name :: next :: more = (front ++ [name]) ++ next :: more := by simp
      have further : next :: more ≠ [] := List.cons_ne_nil next more
      rw [whole] at h
      have free : fs.files.lookup (front ++ [name]) = none :=
        h.clear _ (List.prefix_append ..) (by simp)
      rw [free, h.isDirectory further]
      exact ih h further

/-- Reading a path that leads from where it begins to a file gives the contents of the file. -/
theorem HasFile.read {path : Path} (h : fs.HasFile (fs.start path ++ below) contents)
    (further : below ≠ []) (split : (segments path.bytes).filter (fun s => !s.isEmpty) = below)
    (noNul : 0 ∉ path.bytes) (short : path.bytes.length < maxPathLength)
    (closed : path.bytes.getLast? ≠ some slash) : fs.read path = contents := by
  have written : ¬ path.isEmpty = true := by
    rw [isEmpty, List.isEmpty_iff]
    intro empty
    rw [empty] at split
    exact further split.symm
  have found : fs.lookup path = .ok (.file contents) := by
    rw [lookup, if_neg (by simpa using noNul), if_neg written, if_neg (Nat.not_le.mpr short)]
    dsimp only
    rw [split, h.followAll further]
    dsimp only
    rw [if_neg closed]
  rw [FileSystem.read, found]

/-- Names put together with slashes are taken apart again. -/
theorem segments_of_entryNames (named : ∀ name ∈ names, IsEntryName name) (further : names ≠ []) :
    (segments (join names)).filter (fun s => !s.isEmpty) = names := by
  rw [segments_join further fun name member => (named name member).noSlash,
    List.filter_eq_self]
  intro name member
  simpa using (named name member).filled

theorem noNul_of_entryNames (named : ∀ name ∈ names, IsEntryName name) : 0 ∉ join names := by
  cases names with
  | nil => exact List.not_mem_nil
  | cons first more =>
    obtain ⟨first, more⟩ := List.forall_mem_cons.mp named
    rw [join, intercalate_cons_eq, List.mem_append, List.mem_flatMap, not_or]
    refine ⟨first.noNul, ?_⟩
    rintro ⟨name, member, inside⟩
    rcases List.mem_append.mp inside with slashed | inside
    · exact absurd slashed (by decide)
    · exact (more name member).noNul inside

theorem head?_of_entryNames (named : ∀ name ∈ names, IsEntryName name) :
    (join names).head? ≠ some slash := by
  cases names with
  | nil => exact (Option.some_ne_none slash).symm
  | cons first more =>
    have proper := named first (List.mem_cons_self ..)
    rw [head?_join proper.filled]
    exact fun same => proper.noSlash (List.mem_of_head? same)

theorem getLast?_of_entryNames (named : ∀ name ∈ names, IsEntryName name) :
    (join names).getLast? ≠ some slash := by
  rcases names.eq_nil_or_concat with rfl | ⟨front, name, rfl⟩
  · exact (Option.some_ne_none slash).symm
  · have proper : IsEntryName name := named name (by simp)
    rw [List.concat_eq_append, getLast?_join proper.filled]
    exact fun same => proper.noSlash (List.mem_of_getLast? same)

/-- A file is read at its absolute path. -/
theorem read_absolute (h : fs.HasFile names contents) (further : names ≠ [])
    (short : (join names).length + 1 < maxPathLength) :
    fs.read ⟨slash :: join names⟩ = contents := by
  have begins : fs.start ⟨slash :: join names⟩ = [] := rfl
  have whole : (segments (slash :: join names)).filter (fun s => !s.isEmpty) = names := by
    rw [segments_cons, if_pos rfl]
    exact segments_of_entryNames h.named further
  refine HasFile.read (by rwa [begins]) further whole ?_ short ?_
  · rw [List.mem_cons, not_or]
    exact ⟨by decide, noNul_of_entryNames h.named⟩
  · have written : join names ≠ [] := by
      intro empty
      rw [empty] at whole
      exact further whole.symm
    rw [List.getLast?_cons_of_ne_nil written]
    exact getLast?_of_entryNames h.named

/-- A file below the working directory is read at its path from there. -/
theorem read_relative (h : fs.HasFile (fs.workDir ++ below) contents) (further : below ≠ [])
    (short : (join below).length < maxPathLength) : fs.read ⟨join below⟩ = contents := by
  have named : ∀ name ∈ below, IsEntryName name := fun name member =>
    h.named name (List.mem_append_right _ member)
  have begins : fs.start ⟨join below⟩ = fs.workDir := if_neg (head?_of_entryNames named)
  exact HasFile.read (by rwa [begins]) further (segments_of_entryNames named further)
    (noNul_of_entryNames named) short (getLast?_of_entryNames named)

/-- A file outside the working directory is read at a path that leads up and down again. -/
example : ((bare [Text.Utf8.encode "build"]).addFile (.ofString "/etc/motd") [97]).read
    (.ofString "../etc/motd") = .ok [97] := rfl

end FileSystem
end BillOfMaterials
