import BillOfMaterials.Proofs.Identifier.FileKeys
import BillOfMaterials.Proofs.Store.Refusal

/-!
# What identifiers are made of

The identifier of a package keeps the letters, digits, dots and hyphens of its name, that of a file
is a digest, and they begin differently. Where nothing comes with an identifier of its own, files
and packages therefore never meet, and what becomes of a package is told from names alone.
-/
namespace BillOfMaterials

namespace Identifier

/-- An ASCII letter or digit, a dot or a hyphen. -/
def IsTokenChar (c : Char) : Prop :=
  ('A' ≤ c ∧ c ≤ 'Z') ∨ ('a' ≤ c ∧ c ≤ 'z') ∨ ('0' ≤ c ∧ c ≤ '9') ∨ c = '.' ∨ c = '-'

instance (c : Char) : Decidable (IsTokenChar c) := inferInstanceAs (Decidable (_ ∨ _))

/-- The characters of a name that its identifier keeps, in order. -/
def tokenChars (name : String) : List Char := name.toList.filter fun c => decide (IsTokenChar c)

variable {name id : String}

theorem isAllowed_eq (c : Char) : isAllowed c = decide (IsTokenChar c) := by
  have ranges : isAllowed c = ((decide ('A' ≤ c ∧ c ≤ 'Z') || ('a' ≤ c && c ≤ 'z') ||
      ('0' ≤ c && c ≤ '9')) || c == '.' || c == '-') := rfl
  rw [Bool.eq_iff_iff, ranges, decide_eq_true_iff]
  simp [IsTokenChar, or_assoc]

theorem toList_token (name : String) : (token name).toList = tokenChars name := by
  rw [token, String.toList_ofList, tokenChars]
  exact List.filter_congr fun c _ => isAllowed_eq c

theorem token_eq_iff {name' : String} :
    token name = token name' ↔ tokenChars name = tokenChars name' := by
  rw [← String.toList_inj, toList_token, toList_token]

theorem token_eq_empty_iff_tokenChars : token name = "" ↔ tokenChars name = [] := by
  rw [← String.toList_inj, toList_token, String.toList_empty]

theorem token_token (name : String) : token (token name) = token name := by
  rw [token_eq_iff, tokenChars, toList_token, tokenChars, List.filter_filter]
  simp

theorem ofPackage_eq_ok_iff :
    ofPackage name = .ok id ↔ tokenChars name ≠ [] ∧ id = "Package-" ++ token name := by
  rw [ofPackage, Ne, ← token_eq_empty_iff_tokenChars]
  by_cases blank : token name = "" <;> simp [blank, @eq_comm _ id]

theorem tokenChars_ne_nil_iff : tokenChars name ≠ [] ↔ ∃ c ∈ name.toList, IsTokenChar c := by
  simp [tokenChars]

theorem file_ne_package (digest token : String) : "File-" ++ digest ≠ "Package-" ++ token := by
  intro same
  have first := congrArg (fun s => s.toList.head?) same
  simp at first

end Identifier

namespace Package

open Identifier

variable {start p child : Package} {items : List Attachment} {stored : Attachment}

/-- Nothing comes with an identifier. -/
def Unlabelled (items : List Attachment) : Prop := ∀ item ∈ items, item.id = ""

/-- The package is attached when its turn comes. -/
def Accepted (start : Package) (items : List Attachment) (child : Package) : Prop :=
  ∃ front r back id, items = front ++ .package r child :: back ∧
    ((start.addAll front).add (.package r child)).result = .ok id

/-- An unlabelled file is resolved to a digest. -/
theorem id_of_resolve_file {f : File} (unlabelled : f.id = "")
    (resolved : p.resolve (.file f) = .ok stored) : ∃ digest, stored.id = "File-" ++ digest := by
  obtain ⟨id, synthesised, rfl⟩ := resolve_file_eq_ok_iff.mp resolved
  rw [fileId, unlabelled] at synthesised
  exact ⟨_, (ofFile_eq_ok_iff.mp synthesised).2.2⟩

/-- An unlabelled package is resolved to what its name keeps. -/
theorem resolve_of_unlabelled {r : Relationship} {id : String} (unlabelled : child.id = "") :
    (∃ stored, p.resolve (.package r child) = .ok stored ∧ stored.id = id) ↔
      tokenChars child.name ≠ [] ∧ id = "Package-" ++ token child.name := by
  rw [← ofPackage_eq_ok_iff, resolve, identified, unlabelled]
  cases ofPackage child.name <;> simp [Except.map, Attachment.id]

section Run

variable {front : List Attachment} {item : Attachment} {id : String}

/-- Of unlabelled calls a ledger lists files under digests, and packages that were accepted under
what their names keep. -/
theorem Unlabelled.of_mem_ledger (unlabelled : Unlabelled items) (empty : start.Follows [] start)
    (member : stored ∈ start.ledger items) :
    (∃ digest, stored.id = "File-" ++ digest) ∨
      (stored.space ≠ .file ∧ ∃ child, start.Accepted items child ∧
        stored.id = "Package-" ++ token child.name) := by
  obtain ⟨front, item, back, rfl, taken⟩ := mem_ledger_iff.mp member
  have bare : item.id = "" := unlabelled item (by simp)
  have resolved := (taken?_eq_some_iff.mp taken).1
  cases item with
  | file f => exact .inl (id_of_resolve_file bare resolved)
  | package r child =>
    refine .inr ⟨?_, child, ⟨front, r, back, stored.id, rfl, ?_⟩, ?_⟩
    · rw [space_of_resolve resolved]
      exact Attachment.space_package_ne_file r child
    · exact (empty.addAll front).result_eq_ok_iff.mpr ⟨stored, taken, rfl⟩
    · exact ((resolve_of_unlabelled bare).mp ⟨stored, resolved, rfl⟩).2

/-- The identifier of a package is listed once a package was accepted whose name keeps the same. -/
theorem Unlabelled.package_mem_ledger_iff (unlabelled : Unlabelled items)
    (empty : start.Follows [] start) {name : String} :
    "Package-" ++ token name ∈ (start.ledger items).map Attachment.id ↔
      ∃ earlier, start.Accepted items earlier ∧ tokenChars earlier.name = tokenChars name := by
  rw [List.mem_map]
  constructor
  · rintro ⟨stored, member, same⟩
    rcases unlabelled.of_mem_ledger empty member with ⟨digest, file⟩ | ⟨-, earlier, accepted, kept⟩
    · exact absurd (file.symm.trans same) (file_ne_package _ _)
    · rw [kept, String.append_right_inj, token_eq_iff] at same
      exact ⟨earlier, accepted, same⟩
  · rintro ⟨earlier, ⟨front, r, back, id, rfl, accepted⟩, same⟩
    obtain ⟨stored, taken, rfl⟩ := (empty.addAll front).result_eq_ok_iff.mp accepted
    have bare : earlier.id = "" := unlabelled (.package r earlier) (by simp)
    have resolved := (taken?_eq_some_iff.mp taken).1
    refine ⟨stored, mem_ledger_iff.mpr ⟨front, _, back, rfl, taken⟩, ?_⟩
    rw [← token_eq_iff.mpr same]
    exact ((resolve_of_unlabelled bare).mp ⟨stored, resolved, rfl⟩).2

/-- An unlabelled package is attached if its name keeps something, and that is not listed. -/
theorem accepted_iff_of_unlabelled (empty : start.Follows [] start) {r : Relationship}
    (bare : child.id = "") :
    (∃ id, ((start.addAll front).add (.package r child)).result = .ok id) ↔
      tokenChars child.name ≠ [] ∧
        "Package-" ++ token child.name ∉ (start.ledger front).map Attachment.id := by
  constructor
  · rintro ⟨id, accepted⟩
    obtain ⟨stored, taken, -⟩ := (empty.addAll front).result_eq_ok_iff.mp accepted
    obtain ⟨resolved, admitted⟩ := taken?_eq_some_iff.mp taken
    obtain ⟨usable, named⟩ := (resolve_of_unlabelled bare).mp ⟨stored, resolved, rfl⟩
    rw [space_of_resolve resolved, or_iff_right (Attachment.space_package_ne_file r child),
      named] at admitted
    exact ⟨usable, admitted⟩
  · rintro ⟨usable, fresh⟩
    obtain ⟨stored, resolved, named⟩ :=
      (resolve_of_unlabelled (p := start) (r := r) bare).mpr ⟨usable, rfl⟩
    have taken := taken?_eq_some_iff.mpr ⟨resolved, .inr (named ▸ fresh)⟩
    exact ⟨_, (empty.addAll front).result_eq_ok_iff.mpr ⟨stored, taken, rfl⟩⟩

/-- After unlabelled calls, an unlabelled package is refused over its name. -/
theorem Unlabelled.refused_iff (unlabelled : Unlabelled front) (empty : start.Follows [] start)
    {r : Relationship} (bare : child.id = "") :
    (∃ e, ((start.addAll front).add (.package r child)).result = .error e) ↔
      tokenChars child.name = [] ∨ ∃ earlier, start.Accepted front earlier ∧
        tokenChars earlier.name = tokenChars child.name := by
  have settled : (∃ e, ((start.addAll front).add (.package r child)).result = .error e) ↔
      ¬ ∃ id, ((start.addAll front).add (.package r child)).result = .ok id := by
    cases ((start.addAll front).add (.package r child)).result <;> simp
  rw [settled, accepted_iff_of_unlabelled empty bare, unlabelled.package_mem_ledger_iff empty,
    Classical.not_and_iff_not_or_not, Classical.not_not, Classical.not_not]

/-- Unlabelled files and packages do not meet: nothing is refused over the identifier of a file. -/
theorem Unlabelled.no_conflict_with_file (unlabelled : Unlabelled front)
    (empty : start.Follows [] start) (bare : item.id = "") (refused : Option Package) :
    ((start.addAll front).add item).result ≠ .error (.conflict id .file refused) := by
  intro conflict
  have now : start.Follows (start.ledger front) (start.addAll front) := empty.addAll front
  cases item with
  | file f =>
    rw [add, addFile_result_of_unnamed _ bare, ofFile] at conflict
    split at conflict
    · cases conflict
    · split at conflict <;> cases conflict
  | package r child =>
    rw [add_package] at conflict
    cases attach_result_eq_error_iff.mp conflict with
    | taken resolved first =>
      have used := first.1
      rw [now.held] at used
      obtain ⟨stored, found⟩ := Option.ne_none_iff_exists'.mp used
      obtain ⟨member, same, space⟩ := mem_of_newest found
      rcases unlabelled.of_mem_ledger empty member with ⟨digest, file⟩ | ⟨package, -⟩
      · rcases resolved with ⟨named, -⟩ | ⟨-, -, synthesised⟩
        · exact named bare
        · exact file_ne_package _ _ (file.symm.trans (same.trans synthesised))
      · exact package space

end Run

/-- What unlabelled calls on a package without children come to. -/
structure ToldFromNames (start : Package) (front : List Attachment) (item : Attachment) :
    Prop where
  /-- Files stand in nobody's way. -/
  no_conflict_with_file : ∀ id refused,
    ((start.addAll front).add item).result ≠ .error (.conflict id .file refused)
  /-- A package is refused if its name keeps nothing, or what the name of a package kept that was
  accepted before. -/
  refused_iff : ∀ r child, item = .package r child →
    ((∃ e, ((start.addAll front).add item).result = .error e) ↔
      (∀ c ∈ child.name.toList, ¬ IsTokenChar c) ∨ ∃ earlier, start.Accepted front earlier ∧
        tokenChars earlier.name = tokenChars child.name)

/-- Identifiers are made of the letters, digits, dots and hyphens of the name of a package, and of
the digest for a file. Without any other identifiers, files and packages stay apart, and packages
are told by what their names keep. -/
theorem unlabelled_calls_told_from_names :
    (∀ name : String,
      ((∃ id, ofPackage name = .ok id) ↔ ∃ c ∈ name.toList, IsTokenChar c) ∧
      ∀ id, ofPackage name = .ok id → ∃ kept : String, kept.toList = tokenChars name ∧
        id = "Package-" ++ kept ∧ ofPackage kept = ofPackage name) ∧
    (∀ package file : String, package ≠ "" → file ≠ "" →
      ∃ digest, ofFile package file = .ok ("File-" ++ digest) ∧
        Algorithm.sha1.IsDigest digest) ∧
    ∀ info verification options items, Unlabelled items →
      ∀ front item back, items = front ++ item :: back →
        (childless info verification options).ToldFromNames front item := by
  refine ⟨fun name => ⟨?usable, fun id synthesised => ?kept⟩, ?digest, ?run⟩
  case usable =>
    rw [← tokenChars_ne_nil_iff]
    simp [ofPackage_eq_ok_iff]
  case kept =>
    have same : ofPackage (token name) = ofPackage name := by rw [ofPackage, ofPackage, token_token]
    exact ⟨token name, toList_token name, (ofPackage_eq_ok_iff.mp synthesised).2, same⟩
  case digest =>
    intro package file named_package named_file
    exact ⟨_, ofFile_of_named named_package named_file, Algorithm.sha1.isDigest_hash _⟩
  case run =>
    rintro info verification options items unlabelled front item back rfl
    have empty := follows_childless info verification options
    have before : Unlabelled front := fun earlier member => unlabelled earlier (by simp [member])
    have bare : item.id = "" := unlabelled item (by simp)
    refine ⟨fun id => before.no_conflict_with_file empty bare, ?_⟩
    rintro r child rfl
    rw [before.refused_iff empty bare]
    simp [tokenChars]

/-- A blank does not tell packages apart, under whichever relationship, whatever files there are. -/
theorem unlabelled_calls_told_from_names_of_blank :
    let start := childless { name := "app" } {} {}
    let front : List Attachment := [.package .contains (named "zlib"), .file (.named "zlib.c")]
    let again : Attachment := .package .dependsOn (named "z lib")
    Unlabelled (front ++ [again]) ∧ start.Accepted front (named "zlib") ∧
      (∃ e, ((start.addAll front).add again).result = .error e) ∧
      ∃ digest, ofFile "app" "zlib.c" = .ok ("File-" ++ digest) ∧ digest.length = 40 := by
  intro start front again
  obtain ⟨-, file, run⟩ := unlabelled_calls_told_from_names
  have unlabelled : Unlabelled (front ++ [again]) := by
    intro item member
    rcases member with _ | ⟨_, _ | ⟨_, _ | ⟨_, ⟨⟩⟩⟩⟩ <;> rfl
  have accepted : start.Accepted front (named "zlib") :=
    ⟨[], .contains, _, "Package-zlib", rfl, rfl⟩
  have told : start.ToldFromNames front again := run _ _ _ _ unlabelled front again [] rfl
  obtain ⟨digest, identifier, form⟩ := file "app" "zlib.c" (by decide) (by decide)
  exact ⟨unlabelled, accepted,
    (told.refused_iff _ _ rfl).mpr (.inr ⟨_, accepted, by decide⟩), digest, identifier, form.length⟩

end Package
end BillOfMaterials
