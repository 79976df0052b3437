import BillOfMaterials.Path
import BillOfMaterials.Proofs.Text.Utf8

/-!
# Segments of a written path

The bytes of a path that is written as a text split at slashes where its characters do. Whether a
parent directory is among the components can therefore be read off the text.
-/
namespace BillOfMaterials.Path

open Text.Utf8

section Split

variable {α β : Type} [BEq α] [LawfulBEq α] [BEq β] [LawfulBEq β] {a : α} {b : β}

theorem splitOn_append_of_notMem {front : List β} (apart : b ∉ front) (rest : List β) :
    (front ++ rest).splitOn b = (rest.splitOn b).modifyHead (front ++ ·) := by
  induction front with
  | nil =>
    rw [List.nil_append]
    cases rest.splitOn b <;> rfl
  | cons c front ih =>
    rw [List.mem_cons, not_or] at apart
    rw [List.cons_append, List.splitOn_cons_eq_if_modifyHead, ih apart.2,
      if_neg (by simpa using Ne.symm apart.1), List.modifyHead_modifyHead]
    rfl

/-- Where only the separator is encoded with the separator, a list and its encoding split alike. -/
theorem splitOn_flatMap {f : α → List β} (same : f a = [b]) (apart : ∀ c, c ≠ a → b ∉ f c)
    (l : List α) : (l.flatMap f).splitOn b = (l.splitOn a).map (List.flatMap f) := by
  induction l with
  | nil => rfl
  | cons c l ih =>
    rw [List.flatMap_cons, List.splitOn_cons_eq_if_modifyHead]
    by_cases here : c = a
    · rw [here, same, List.singleton_append, List.splitOn_cons_eq_if_modifyHead, ih,
        if_pos (beq_self_eq_true b), if_pos (beq_self_eq_true a)]
      rfl
    · rw [splitOn_append_of_notMem (apart c here), ih, if_neg (by simpa using here)]
      cases l.splitOn a <;> rfl

end Split

theorem segments_eq_splitOn (bytes : List UInt8) : segments bytes = bytes.splitOn slash := by
  induction bytes with
  | nil => rfl
  | cons b bytes ih =>
    rw [segments, List.foldr_cons, ← segments, ih, List.splitOn_cons_eq_if_modifyHead]
    by_cases here : b = slash
    · simp [here]
    · rw [if_neg here, if_neg (by simpa using here)]
      cases split : bytes.splitOn slash with
      | nil => exact absurd split (List.splitOn_ne_nil _ _)
      | cons part more => rfl

theorem slash_notMem_encode {c : Char} (apart : c ≠ '/') : slash ∉ String.utf8EncodeChar c := by
  intro member
  have point : c.toNat = slash.toNat := (spells_encode c).point_of_mem member (by decide)
  exact apart (Char.toNat_inj.mp point)

/-- The parts of a text between its slashes. -/
def parts (text : String) : List String := (text.toList.splitOn '/').map String.ofList

theorem segments_encode (text : String) : segments (encode text) = (parts text).map encode := by
  rw [segments_eq_splitOn, encode, splitOn_flatMap (a := '/') rfl fun c => slash_notMem_encode,
    parts, List.map_map]
  exact List.map_congr_left fun chars _ => by simp [encode]

theorem component_eq_parent_iff {segment : List UInt8} :
    component segment = .parent ↔ segment = [dot, dot] := by
  rw [component]
  split <;> simp_all

theorem parent_notMem_front (bytes : List UInt8) : .parent ∉ (front bytes).1 := by
  cases bytes with
  | nil => simp [front]
  | cons b rest =>
    rw [front]
    split
    · simp
    · split <;> simp

/-- The front of a path holds no two dots. -/
theorem parent_mem_segments_front (bytes : List UInt8) :
    [dot, dot] ∈ segments (front bytes).2 ↔ [dot, dot] ∈ segments bytes := by
  simp only [segments_eq_splitOn]
  cases bytes with
  | nil => rfl
  | cons b rest =>
    rw [front]
    split
    next root => simp [root, List.splitOn_cons_eq_if_modifyHead]
    · split
      next current =>
        obtain ⟨rfl, closed⟩ := current
        cases rest with
        | nil => decide
        | cons c rest =>
          have closed : c = slash := closed
          have apart : ¬ dot = slash := by decide
          simp [closed, List.splitOn_cons_eq_if_modifyHead, apart]
      next => rfl

theorem parent_mem_components_iff (p : Path) :
    .parent ∈ p.components ↔ [dot, dot] ∈ segments p.bytes := by
  rw [components, List.mem_append, or_iff_right (parent_notMem_front _), List.mem_map,
    ← parent_mem_segments_front]
  constructor
  · rintro ⟨segment, member, means⟩
    rw [component_eq_parent_iff] at means
    exact means ▸ (List.mem_filter.mp member).1
  · intro member
    exact ⟨_, List.mem_filter.mpr ⟨member, rfl⟩, rfl⟩

/-- A written path has a parent directory among its components exactly if two dots stand between
slashes in the text. -/
theorem parent_mem_components_ofString (text : String) :
    .parent ∈ (ofString text).components ↔ ".." ∈ parts text := by
  have dots : encode ".." = [dot, dot] := rfl
  rw [parent_mem_components_iff, ofString, segments_encode, ← dots, List.mem_map]
  constructor
  · rintro ⟨part, member, same⟩
    exact encode_inj.mp same ▸ member
  · intro member
    exact ⟨_, member, rfl⟩

end BillOfMaterials.Path
