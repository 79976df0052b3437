import BillOfMaterials.Proofs.Digest.Form
import BillOfMaterials.Proofs.Digest.Streaming
import BillOfMaterials.Proofs.Outcome
import BillOfMaterials.Proofs.Store.Lookup

/-!
# Checksums of source files

Reading a source file takes one digest after another, each of the bytes that the file has at that
time, and stores it under the name of its algorithm. It ends in one of three ways: there is no such
file, a digest cannot be taken, or all are taken. Only then is anything written.
-/
namespace BillOfMaterials

theorem Algorithm.name_inj {a b : Algorithm} : a.name = b.name ↔ a = b := by
  cases a <;> cases b <;> decide

/-- A key above all others goes to the end. -/
theorem insertEntry_of_above {α : Type} {key : String} {entries : List (String × α)} (value : α)
    (above : ∀ entry ∈ entries, entry.1 < key) :
    insertEntry key value entries = entries ++ [(key, value)] := by
  induction entries with
  | nil => rfl
  | cons first rest ih =>
    have here := above first (List.mem_cons_self ..)
    rw [insertEntry, if_neg (String.lt_asymm here), if_pos here,
      ih fun entry member => above entry (List.mem_cons_of_mem _ member), List.cons_append]

/-- A list that is in order is the list of the entries of its map. -/
theorem SortedMap.entries_ofList {α : Type} {entries : List (String × α)}
    (ascending : (entries.map Prod.fst).Pairwise (· < ·)) :
    (ofList entries).entries = entries := by
  suffices ∀ m : SortedMap α, ((m.entries ++ entries).map Prod.fst).Pairwise (· < ·) →
      (entries.foldl (fun m entry => m.insert entry.1 entry.2) m).entries =
        m.entries ++ entries from
    this .empty ascending
  clear ascending
  induction entries with
  | nil => simp
  | cons entry rest ih =>
    intro m ascending
    have inserted : (m.insert entry.1 entry.2).entries = m.entries ++ [entry] := by
      apply insertEntry_of_above
      intro earlier member
      rw [List.pairwise_map, List.pairwise_append] at ascending
      exact ascending.2.2 earlier member entry (List.mem_cons_self ..)
    rw [List.foldl_cons, ih, inserted, List.append_assoc, List.singleton_append]
    rwa [inserted, List.append_assoc, List.singleton_append]

/-- The digests of contents by the names of `algorithms`. -/
def checksumsOf (algorithms : List Algorithm) (contents : Algorithm → List UInt8) :
    SortedMap String :=
  .ofList (algorithms.map fun a => (a.name, a.hash (contents a)))

theorem entries_checksumsOf {algorithms : List Algorithm} (contents : Algorithm → List UInt8)
    (ascending : (algorithms.map Algorithm.name).Pairwise (· < ·)) :
    (checksumsOf algorithms contents).entries =
      algorithms.map fun a => (a.name, a.hash (contents a)) := by
  apply SortedMap.entries_ofList
  rwa [List.map_map]

/-- A digest is found exactly under the names of the algorithms that were used. -/
theorem find?_checksumsOf (algorithms : List Algorithm) (contents : Algorithm → List UInt8)
    (a : Algorithm) :
    (checksumsOf algorithms contents).find? a.name =
      if a ∈ algorithms then some (a.hash (contents a)) else none := by
  suffices ∀ sums : SortedMap String,
      ((algorithms.map fun b => (b.name, b.hash (contents b))).foldl
          (fun sums entry => sums.insert entry.1 entry.2) sums).find? a.name =
        if a ∈ algorithms then some (a.hash (contents a)) else sums.find? a.name from
    this .empty
  induction algorithms with
  | nil => simp
  | cons b rest ih =>
    intro sums
    rw [List.map_cons, List.foldl_cons, ih, sums.find?_insert]
    by_cases here : a = b
    · subst here
      simp
    · have apart : a.name ≠ b.name := fun same => here (Algorithm.name_inj.mp same)
      simp [here, apart]

section Collecting

variable {during : Algorithm → FileSystem} {path : Path} {context : Algorithm → String}
  {algorithms : List Algorithm} {contents : Algorithm → List UInt8} {a : Algorithm}
  {cause : AccessError} {before : SortedMap String}

/-- Stores one more digest of the file at `path`. -/
def addChecksum (during : Algorithm → FileSystem) (path : Path) (context : Algorithm → String)
    (sums : SortedMap String) (a : Algorithm) : Except Error (SortedMap String) :=
  match a.hashFile (during a) path with
  | .error e => .error (.within (context a) e)
  | .ok digest => .ok (sums.insert a.name digest)

theorem sourceChecksums_eq_foldlM (algorithms : List Algorithm) :
    sourceChecksums during path context algorithms =
      algorithms.foldlM (addChecksum during path context) .empty := rfl

theorem addChecksum_of_read {bytes : List UInt8} (read : (during a).read path = .ok bytes) :
    addChecksum during path context before a = .ok (before.insert a.name (a.hash bytes)) := by
  rw [addChecksum, a.hashFile_of_read read]

theorem addChecksum_of_read_error (failed : (during a).read path = .error cause) :
    addChecksum during path context before a =
      .error (.within (context a) (.access path.display cause)) := by
  rw [addChecksum, a.hashFile_of_read_error failed]

theorem sourceChecksums_of_read
    (read : ∀ a ∈ algorithms, (during a).read path = .ok (contents a)) :
    sourceChecksums during path context algorithms = .ok (checksumsOf algorithms contents) := by
  rw [sourceChecksums_eq_foldlM]
  suffices ∀ before, algorithms.foldlM (addChecksum during path context) before =
      .ok ((algorithms.map fun a => (a.name, a.hash (contents a))).foldl
        (fun sums entry => sums.insert entry.1 entry.2) before) from
    this .empty
  induction algorithms with
  | nil => exact fun _ => rfl
  | cons a rest ih =>
    intro before
    rw [List.foldlM_cons, addChecksum_of_read (read a (List.mem_cons_self ..))]
    exact ih (fun b member => read b (List.mem_cons_of_mem _ member)) _

/-- The first digest that cannot be taken decides the error. -/
theorem sourceChecksums_of_first_failure {front back : List Algorithm}
    (earlier : ∀ b ∈ front, ∃ bytes, (during b).read path = .ok bytes)
    (failed : (during a).read path = .error cause) :
    sourceChecksums during path context (front ++ a :: back) =
      .error (.within (context a) (.access path.display cause)) := by
  rw [sourceChecksums_eq_foldlM]
  suffices ∀ before, (front ++ a :: back).foldlM (addChecksum during path context) before =
      .error (.within (context a) (.access path.display cause)) from
    this .empty
  induction front with
  | nil =>
    intro before
    rw [List.nil_append, List.foldlM_cons, addChecksum_of_read_error failed]
    rfl
  | cons b front ih =>
    intro before
    obtain ⟨bytes, read⟩ := earlier b (List.mem_cons_self ..)
    rw [List.cons_append, List.foldlM_cons, addChecksum_of_read read]
    exact ih (fun b member => earlier b (List.mem_cons_of_mem _ member)) _

theorem read_or_first_failure (during : Algorithm → FileSystem) (path : Path)
    (algorithms : List Algorithm) :
    (∃ contents : Algorithm → List UInt8,
      ∀ a ∈ algorithms, (during a).read path = .ok (contents a)) ∨
    ∃ cause front a back, algorithms = front ++ a :: back ∧
      (∀ b ∈ front, ∃ bytes, (during b).read path = .ok bytes) ∧
      (during a).read path = .error cause := by
  cases taken : algorithms.mapM fun a => (during a).read path with
  | error cause => exact .inr ⟨cause, mapM_eq_error_iff.mp taken⟩
  | ok all =>
    refine .inl ⟨fun a => ((during a).read path).toOption.getD [], fun a member => ?_⟩
    have listed : (during a).read path ∈ all.map .ok := by
      rw [← mapM_eq_ok_iff.mp taken]
      exact List.mem_map_of_mem member
    obtain ⟨bytes, -, same⟩ := List.mem_map.mp listed
    simp only [← same, Except.toOption, Option.getD_some]

end Collecting

/-- What reading the source at `path` comes to for a value: a result, and the value afterwards. With
all digests taken it becomes what `fill` makes of them; else it stays as it is. -/
inductive SourceRead {σ : Type} (course : Course) (path : Path) (missing : MissingInput)
    (context : Algorithm → String) (algorithms : List Algorithm) (before : σ)
    (fill : SortedMap String → σ) : Except Error Unit → σ → Prop
  | absent (absent : course.first.pathExists path = false) :
      SourceRead course path missing context algorithms before fill
        (.error (.missingInput missing)) before
  | failed {cause : AccessError} {front back : List Algorithm} {a : Algorithm}
      (there : course.first.pathExists path = true) (split : algorithms = front ++ a :: back)
      (earlier : ∀ b ∈ front, ∃ bytes, (course.during b).read path = .ok bytes)
      (failed : (course.during a).read path = .error cause) :
      SourceRead course path missing context algorithms before fill
        (.error (.within (context a) (.access path.display cause))) before
  | filled {contents : Algorithm → List UInt8} (there : course.first.pathExists path = true)
      (read : ∀ a ∈ algorithms, (course.during a).read path = .ok (contents a)) :
      SourceRead course path missing context algorithms before fill
        (.ok ()) (fill (checksumsOf algorithms contents))

variable {course : Course} {path : Path}

/-- A value that is written once all digests are taken, and only then, is read in one of these
ways. -/
theorem SourceRead.of_sourceChecksums {σ : Type} {missing : MissingInput}
    {context : Algorithm → String} {algorithms : List Algorithm} {before : σ}
    {fill : SortedMap String → σ} {outcome : Outcome σ Unit}
    (absent : course.first.pathExists path = false →
      outcome.result = .error (.missingInput missing) ∧ outcome.state = before)
    (failed : course.first.pathExists path = true → ∀ e,
      sourceChecksums course.during path context algorithms = .error e →
        outcome.result = .error e ∧ outcome.state = before)
    (taken : course.first.pathExists path = true → ∀ sums,
      sourceChecksums course.during path context algorithms = .ok sums →
        outcome.result = .ok () ∧ outcome.state = fill sums) :
    SourceRead course path missing context algorithms before fill
      outcome.result outcome.state := by
  cases there : course.first.pathExists path with
  | false =>
    obtain ⟨result, state⟩ := absent there
    rw [result, state]
    exact .absent there
  | true =>
    rcases read_or_first_failure course.during path algorithms with
      ⟨contents, read⟩ | ⟨cause, front, a, back, split, earlier, stopped⟩
    · obtain ⟨result, state⟩ := taken there _ (sourceChecksums_of_read read)
      rw [result, state]
      exact .filled there read
    · obtain ⟨result, state⟩ := failed there _
        (split ▸ sourceChecksums_of_first_failure earlier stopped)
      rw [result, state]
      exact .failed there split earlier stopped

theorem File.sourceRead (f : File) (course : Course) (path : Path) :
    SourceRead course path (.fileSource path.display) hashContext [.sha1, .sha256, .sha512] f
      (fun checksums => { f with checksums, sourceFile := path.display })
      (f.readSourceDuring course path).result (f.readSourceDuring course path).state := by
  apply SourceRead.of_sourceChecksums
  · intro absent
    simp [readSourceDuring, absent]
  · intro there e failed
    simp [readSourceDuring, there, failed]
  · intro there sums taken
    simp [readSourceDuring, there, taken]

theorem Package.sourceRead (p : Package) (course : Course) (path : Path) :
    SourceRead course path (.packageSource path.display) hashContext [.sha256, .sha512] p
      (fun checksums => { p with info := { p.info with
        checksums, sourceFile := path.display, fileName := (p.options.relativePath path).1 } })
      (p.readSourceDuring course path).result (p.readSourceDuring course path).state := by
  apply SourceRead.of_sourceChecksums
  · intro absent
    simp [readSourceDuring, absent]
  · intro there e failed
    simp [readSourceDuring, there, failed]
  · intro there sums taken
    simp [readSourceDuring, there, taken]

/-- A file that was read has a digest under every algorithm. -/
theorem File.checksum?_readSourceDuring {f : File}
    (done : (f.readSourceDuring course path).result = .ok ()) (a : Algorithm) :
    ∃ sum, (f.readSourceDuring course path).state.checksum? a = some sum ∧ a.IsDigest sum := by
  have read := f.sourceRead course path
  generalize f.readSourceDuring course path = outcome at done read ⊢
  obtain ⟨result, state, events⟩ := outcome
  dsimp only at done read ⊢
  cases read with
  | absent => cases done
  | failed => cases done
  | @filled contents there read =>
    have used : a ∈ [Algorithm.sha1, .sha256, .sha512] := by cases a <;> decide
    refine ⟨a.hash (contents a), ?_, a.isDigest_hash _⟩
    rw [checksum?, find?_checksumsOf, if_pos used]

theorem File.checksum?_readSource {f : File} {fs : FileSystem}
    (done : (f.readSource fs path).result = .ok ()) (a : Algorithm) :
    ∃ sum, (f.readSource fs path).state.checksum? a = some sum ∧ a.IsDigest sum :=
  f.checksum?_readSourceDuring done a

end BillOfMaterials
