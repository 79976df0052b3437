import BillOfMaterials.Proofs.Digest.Form
import BillOfMaterials.Proofs.Document.Legible
import BillOfMaterials.Proofs.Document.Outline
import BillOfMaterials.Proofs.Rendering.FirstDefect
import BillOfMaterials.Proofs.Rendering.Refresh
import BillOfMaterials.Proofs.Store.Lookup
import Mathlib.Data.List.Basic

/-!
# Recomputing verification codes

The code of a package can be recomputed from the stanzas of its files. They leave out empty
checksums, which the code takes in, but which add nothing to the text that is hashed. What a stanza
shows of the files is what the rendering found, whatever the summaries were before.
-/
namespace BillOfMaterials

/-- What follows a mark in a text that begins with it. -/
def textAfter? (mark text : String) : Option String :=
  (mark.toList.isPrefixOf? text.toList).map String.ofList

theorem textAfter?_eq_some_iff {mark text rest : String} :
    textAfter? mark text = some rest ↔ text = mark ++ rest := by
  rw [textAfter?, Option.map_eq_some_iff, ← String.toList_inj, String.toList_append]
  constructor
  · rintro ⟨chars, found, rfl⟩
    rw [String.toList_ofList]
    exact (List.isPrefixOf?_eq_some_iff_append_eq.mp found).symm
  · intro split
    exact ⟨rest.toList, List.isPrefixOf?_eq_some_iff_append_eq.mpr split.symm, String.ofList_toList⟩

/-- The checksums under an algorithm that the stanza of a file shows. -/
def Stanza.checksumsOf (s : Stanza) (a : Algorithm) : List String :=
  (s.values "FileChecksum").filterMap (textAfter? (a.name ++ ": "))

/-- The key of a checksum without a colon is read back from its field. -/
theorem textAfter?_checksum {key value : String} (plain : ':' ∉ key.toList) (a : Algorithm) :
    textAfter? (a.name ++ ": ") (key ++ ": " ++ value) =
      if key = a.name then some value else none := by
  have name : ':' ∉ a.name.toList := by
    cases a <;> decide
  apply Option.ext
  intro rest
  rw [textAfter?_eq_some_iff]
  constructor
  · intro same
    have chars : key.toList ++ ':' :: (' ' :: value.toList) =
        a.name.toList ++ ':' :: (' ' :: rest.toList) := by
      simpa using congrArg String.toList same
    obtain ⟨keys, values⟩ := split_at_mark plain name chars
    rw [if_pos (String.toList_inj.mp keys), String.toList_inj.mp (List.cons.inj values).2]
  · intro found
    split at found
    next same => rw [same, Option.some.inj found]
    next => cases found

/-- The values under one key, of which there is one at most. -/
theorem filterMap_key {α : Type} {entries : List (String × α)}
    (ascending : (entries.map Prod.fst).Pairwise (· < ·)) (key : String) (keep : α → Bool) :
    (entries.filter fun entry => keep entry.2).filterMap
        (fun entry => if entry.1 = key then some entry.2 else none) =
      ((entries.lookup key).filter keep).toList := by
  induction entries with
  | nil => rfl
  | cons entry rest ih =>
    obtain ⟨below, rest_ascending⟩ := List.pairwise_cons.mp (List.map_cons ▸ ascending)
    have later := ih rest_ascending
    rw [lookup_cons_eq]
    by_cases same : key = entry.1
    · subst same
      have absent : rest.lookup entry.1 = none := by
        rw [List.lookup_eq_none_iff]
        intro other member
        simpa using String.ne_of_lt (below other.1 (List.mem_map_of_mem member))
      rw [absent] at later
      by_cases kept : keep entry.2 <;> simp [Option.filter, kept, later]
    · have apart : entry.1 ≠ key := Ne.symm same
      by_cases kept : keep entry.2 <;> simp [same, apart, kept, later]

theorem File.values_fileChecksum (f : File) :
    f.stanza.values "FileChecksum" =
      (f.checksums.entries.filter fun c => !c.2.isEmpty).map fun c => c.1 ++ ": " ++ c.2 := by
  simp [stanza, checksumFields]

/-- No name of a checksum holds a colon, which ends it in a field. -/
def File.PlainKeys (f : File) : Prop := ∀ key ∈ f.checksums.entries.map Prod.fst, ':' ∉ key.toList

instance (f : File) : Decidable f.PlainKeys := inferInstanceAs (Decidable (∀ key ∈ _, _))

/-- The stanza of a file shows the checksum that the file has, unless it is empty. -/
theorem File.checksumsOf_stanza {f : File} (plain : f.PlainKeys) (a : Algorithm) :
    f.stanza.checksumsOf a = ((f.checksum? a).filter fun sum => !sum.isEmpty).toList := by
  rw [Stanza.checksumsOf, values_fileChecksum, List.filterMap_map, checksum?, SortedMap.find?,
    ← filterMap_key f.checksums.ascending]
  apply List.filterMap_congr
  intro c member
  exact textAfter?_checksum (plain c.1 (List.mem_map_of_mem (List.mem_of_mem_filter member))) a

namespace Verification

/-- The code is the SHA-1 digest of the SHA-1 checksums that stanzas of files show, put together in
ascending order. -/
def IsCodeOf (code : String) (files : List Stanza) : Prop :=
  ∃ ascending : List String, ascending.Pairwise (· ≤ ·) ∧
    ascending.Perm (files.flatMap fun s =>
      (s.values "FileChecksum").filterMap (textAfter? "SHA1: ")) ∧
    code = Algorithm.sha1.hashText (String.join ascending)

/-- Strings in ascending order, as the code takes them in. -/
def sorted (sums : List String) : List String := sums.mergeSort fun a b => decide (a ≤ b)

theorem sorted_ascending (sums : List String) : (sorted sums).Pairwise (· ≤ ·) := by
  have trans (a b c : String) (ab : decide (a ≤ b) = true) (bc : decide (b ≤ c) = true) :
      decide (a ≤ c) = true :=
    decide_eq_true (String.le_trans (of_decide_eq_true ab) (of_decide_eq_true bc))
  have total (a b : String) : (decide (a ≤ b) || decide (b ≤ a)) = true := by
    simpa using String.le_total a b
  exact (List.pairwise_mergeSort trans total sums).imp of_decide_eq_true

/-- The same strings can ascend in one order only. -/
theorem sorted_eq_of_ascending {sums ascending : List String} (same : ascending.Perm sums)
    (h : ascending.Pairwise (· ≤ ·)) : sorted sums = ascending :=
  ((List.mergeSort_perm ..).trans same.symm).eq_of_pairwise
    (fun _ _ _ _ => String.le_antisymm) (sorted_ascending sums) h

theorem sorted_filter (sums : List String) (keep : String → Bool) :
    sorted (sums.filter keep) = (sorted sums).filter keep :=
  sorted_eq_of_ascending ((List.mergeSort_perm sums _).filter keep)
    ((sorted_ascending sums).filter keep)

/-- Empty checksums add nothing to the code. -/
theorem codeKey_filter (sums : List String) :
    codeKey (sums.filter fun sum => !sum.isEmpty) = codeKey sums := by
  have key (sums : List String) : codeKey sums = String.join (sorted sums) := rfl
  rw [key, key, sorted_filter]
  induction sorted sums with
  | nil => rfl
  | cons sum rest ih =>
    by_cases empty : sum = "" <;> simp [empty, String.join_cons, ih]

theorem flatMap_checksumsOf {files : List File} {sums : List String}
    (plain : ∀ f ∈ files, f.PlainKeys) (own : files.map (·.checksum? .sha1) = sums.map some) :
    (files.map File.stanza).flatMap (fun s => s.checksumsOf .sha1) =
      sums.filter fun sum => !sum.isEmpty := by
  induction files generalizing sums with
  | nil =>
    rw [List.map_nil, eq_comm, List.map_eq_nil_iff] at own
    rw [own]
    rfl
  | cons f files ih =>
    cases sums with
    | nil => cases own
    | cons sum sums =>
      rw [List.map_cons, List.map_cons, List.cons.injEq] at own
      have first := File.checksumsOf_stanza (plain f (List.mem_cons_self ..)) .sha1
      have later := ih (fun g member => plain g (List.mem_cons_of_mem _ member)) own.2
      rw [List.map_cons, List.flatMap_cons, first, own.1, later]
      by_cases empty : sum = "" <;> simp [Option.filter, empty]

/-- Summing up gives the code that the stanzas of the files give. -/
theorem isCodeOf_of_ofFiles {files : List File} {v : Verification}
    (plain : ∀ f ∈ files, f.PlainKeys) (summed : ofFiles files = .ok v) :
    IsCodeOf v.code (files.map File.stanza) := by
  obtain ⟨-, sums, own, rfl⟩ := ofFiles_eq_ok_iff.mp summed
  have shown := flatMap_checksumsOf plain own
  refine ⟨sorted (sums.filter fun sum => !sum.isEmpty), sorted_ascending _, ?_, ?_⟩
  · exact (List.mergeSort_perm ..).trans (.of_eq shown.symm)
  · rw [← codeKey_filter]
    rfl

theorem IsCodeOf.ne_empty {code : String} {files : List Stanza} (h : IsCodeOf code files) :
    code ≠ "" := by
  obtain ⟨ascending, -, -, rfl⟩ := h
  exact (Algorithm.sha1.isDigest_hash _).ne_empty

/-- The code is told from the shown checksums once they are known in ascending order. -/
theorem IsCodeOf.eq_of_ascending {code : String} {files : List Stanza} {ascending : List String}
    (h : IsCodeOf code files) (sorted : ascending.Pairwise (· ≤ ·))
    (same : ascending.Perm (files.flatMap fun s =>
      (s.values "FileChecksum").filterMap (textAfter? "SHA1: "))) :
    code = Algorithm.sha1.hashText (String.join ascending) := by
  obtain ⟨others, ascending', same', rfl⟩ := h
  rw [← sorted_eq_of_ascending same sorted, ← sorted_eq_of_ascending same' ascending']

end Verification

namespace Package

/-- What one package shows of its files after a successful rendering. -/
structure Recomputable (q : Package) : Prop where
  /-- Whether files are analysed is shown, and shown once. -/
  analyzed : q.stanza.values "FilesAnalyzed" = [if q.info.filesAnalyzed then "true" else "false"]
  /-- Exactly if they are, a code is shown, and shown once. -/
  shown : q.stanza.values "PackageVerificationCode" =
    if q.stanza.values "FilesAnalyzed" = ["true"] then [q.verification.code] else []
  code : q.stanza.values "FilesAnalyzed" = ["true"] →
    Verification.IsCodeOf q.verification.code (q.files.values.map File.stanza)
  licenses : q.verification.licenses = q.stanza.values "PackageLicenseInfoFromFiles"
  absent : q.stanza.values "FilesAnalyzed" ≠ ["true"] → q.verification = ⟨"", ["NONE"]⟩

theorem values_filesAnalyzed (info : PackageInfo) (v : Verification) :
    (fields info v).values "FilesAnalyzed" = [if info.filesAnalyzed then "true" else "false"] := by
  simp [fields, checksumFields]

theorem values_verificationCode (info : PackageInfo) (v : Verification) :
    (fields info v).values "PackageVerificationCode" = if v.code.isEmpty then [] else [v.code] := by
  simp [fields, checksumFields]

theorem values_licenseInfoFromFiles (info : PackageInfo) (v : Verification) :
    (fields info v).values "PackageLicenseInfoFromFiles" = v.licenses := by
  simp [fields, checksumFields]

/-- A package whose summary is what its files amount to shows what they do. -/
theorem recomputable_of_verify {q : Package} (plain : ∀ f ∈ q.files.values, f.PlainKeys)
    (verified : verify q.info q.files = .ok q.verification) : q.Recomputable := by
  have analyzed := values_filesAnalyzed q.info q.verification
  have code := values_verificationCode q.info q.verification
  have licenses := values_licenseInfoFromFiles q.info q.verification
  rw [← stanza] at analyzed code licenses
  by_cases on : q.info.filesAnalyzed = true
  · rw [verify_of_analyzed on] at verified
    have found := Verification.isCodeOf_of_ofFiles plain verified
    refine ⟨analyzed, ?_, fun _ => found, licenses.symm, ?_⟩
    · simp [analyzed, on, code, found.ne_empty]
    · simp [analyzed, on]
  · rw [verify, if_neg on] at verified
    have none : q.verification = ⟨"", ["NONE"]⟩ := (Except.ok.inj verified).symm
    refine ⟨analyzed, ?_, ?_, licenses.symm, fun _ => none⟩
    · simp [analyzed, on, code, none]
    · simp [analyzed, on]

/-- Where a tree can be rendered, every package of it can be prepared. -/
theorem verify_of_render_ok {p : Package} {text : String} (h : p.render.result = .ok text) :
    ∀ q ∈ p.preorder, ∃ v, verify q.info q.files = .ok v := by
  have sound := Outcome.error?_eq_none_iff.mpr ⟨text, h⟩
  rw [error?_render, List.findSome?_eq_none_iff] at sound
  rw [preorder, List.forall_mem_map]
  intro visit member
  obtain ⟨v, prepared⟩ := prepare_ok_iff.mpr (visit.error?_eq_none_iff.mp (sound visit member))
  exact ⟨v, verify_of_prepare prepared⟩

theorem refreshed_of_verify {q : Package} {v : Verification}
    (verified : verify q.info q.files = .ok v) :
    q.refreshed.info = q.info ∧ q.refreshed.files = q.files ∧ q.refreshed.verification = v := by
  cases q
  rw [refreshed, mapOwn, Own.refreshed, verified]
  exact ⟨rfl, rfl, rfl⟩

/-- After a successful rendering, every package of the tree shows in its stanza what the stanzas of
its own files give. -/
theorem verification_recomputable {p : Package} {text : String}
    (plain : ∀ q ∈ p.preorder, ∀ f ∈ q.files.values, f.PlainKeys)
    (h : p.render.result = .ok text) :
    p.render.state.outline.text = text ∧ p.render.state.lasting = p.lasting ∧
      ∀ q ∈ p.render.state.preorder, q.Recomputable := by
  refine ⟨p.text_outline_of_render h, p.lasting_render, ?_⟩
  rw [p.state_render_of_ok h, refreshed, preorder_mapOwn, List.forall_mem_map]
  intro q member
  obtain ⟨v, verified⟩ := verify_of_render_ok h q member
  obtain ⟨info, files, summary⟩ := refreshed_of_verify verified
  rw [← refreshed]
  apply recomputable_of_verify
  · rw [files]
    exact plain q member
  · rw [info, files, summary, verified]

/-- An analysed dependency of a package that is not analysed: its code is the digest of what its
files show in ascending order, and the empty checksum adds nothing. -/
theorem verification_recomputable_of_app :
    let file (id sum : String) : File := ({ id : File }.withChecksum .sha1 sum)
    let lib : Package := ⟨{ name := "lib", id := "Package-lib", filesAnalyzed := true }, {},
      ⟨[("a.c", file "a.c" "ff"), ("b.c", file "b.c" "00"), ("c.c", file "c.c" "")],
        by decide +kernel⟩, .nil, .nil, {}⟩
    let p : Package := ⟨{ name := "app", id := "Package-app" }, ⟨"stale", ["MIT"]⟩, .empty, .nil,
      .cons "Package-lib" trivial lib .nil, {}⟩
    (∀ q ∈ p.preorder, ∀ f ∈ q.files.values, f.PlainKeys) ∧
      (∃ text, p.render.result = .ok text) ∧
      p.render.state.preorder.map (·.stanza.values "PackageVerificationCode") =
        [[], [Algorithm.sha1.hashText "00ff"]] ∧
      p.render.state.preorder.map (·.verification.code) =
        ["", Algorithm.sha1.hashText "00ff"] := by
  intro file lib p
  have plain : ∀ q ∈ p.preorder, ∀ f ∈ q.files.values, f.PlainKeys := by decide +kernel
  have recomputable := (verification_recomputable plain rfl).2.2
  obtain ⟨app', lib', listed, off, on, files⟩ : ∃ app' lib',
      p.render.state.preorder = [app', lib'] ∧ app'.info.filesAnalyzed = false ∧
      lib'.info.filesAnalyzed = true ∧ lib'.files = lib.files := ⟨_, _, rfl, rfl, rfl, rfl⟩
  rw [listed, List.forall_mem_cons, List.forall_mem_singleton] at recomputable
  obtain ⟨ofApp, ofLib⟩ := recomputable
  have unanalyzed := ofApp.analyzed
  have analyzed := ofLib.analyzed
  rw [off] at unanalyzed
  rw [on] at analyzed
  have code : lib'.verification.code = Algorithm.sha1.hashText "00ff" := by
    have sorted : ["00", "ff"].Pairwise (· ≤ ·) := by decide
    have shown : ((lib.files.values.map File.stanza).flatMap fun s =>
        (s.values "FileChecksum").filterMap (textAfter? "SHA1: ")) = ["ff", "00"] := by
      decide +kernel
    have joined : String.join ["00", "ff"] = "00ff" := rfl
    have found := ofLib.code analyzed
    rw [files] at found
    rw [← joined]
    exact found.eq_of_ascending sorted (shown ▸ .swap ..)
  refine ⟨plain, ⟨_, rfl⟩, ?_, ?_⟩
  · simp [listed, ofApp.shown, ofLib.shown, unanalyzed, analyzed, code]
  · simp [listed, ofApp.absent, unanalyzed, code]

end Package

end BillOfMaterials
