import BillOfMaterials.Proofs.Rendering.FirstDefect
import BillOfMaterials.Proofs.Source.Checksums
import BillOfMaterials.Proofs.Source.Reaching

/-!
# Sources are taken in whole or not at all

A file or a package changes only after every digest of its source has been taken, even if the file
system changes while they are being taken: a failure at any of them leaves it as it was. A file
whose source was taken in has all that a verification code needs of it.
-/
namespace BillOfMaterials

theorem FileSystem.pathExists_of_read {fs : FileSystem} {path : Path} {contents : List UInt8}
    (read : fs.read path = .ok contents) : fs.pathExists path = true := by
  rw [FileSystem.read] at read
  rw [pathExists]
  cases found : fs.lookup path with
  | error e =>
    rw [found] at read
    cases read
  | ok node => rfl

/-- What a caller can rely on when a value is filled in from the source at `path`. -/
structure AllOrNothing {σ : Type} (course : Course) (path : Path) (missing : MissingInput)
    (algorithms : List Algorithm) (before : σ) (fill : SortedMap String → σ)
    (outcome : Outcome σ Unit) : Prop where
  succeeds_iff : outcome.result = .ok () ↔ course.first.pathExists path = true ∧
    ∀ a ∈ algorithms, ∃ bytes, (course.during a).read path = .ok bytes
  filled : outcome.result = .ok () → ∃ (contents : Algorithm → List UInt8) (sums : _),
    (∀ a ∈ algorithms, (course.during a).read path = .ok (contents a)) ∧
    sums.entries = algorithms.map (fun a => (a.name, a.hash (contents a))) ∧
    outcome.state = fill sums
  unchanged : ∀ e, outcome.result = .error e → outcome.state = before
  missing_iff : ∀ what, outcome.result = .error (.missingInput what) ↔
    course.first.pathExists path = false ∧ what = missing
  /-- Any other error wraps that of the read that failed. -/
  inaccessible : ∀ e, outcome.result = .error e → course.first.pathExists path = true →
    ∃ context cause, e = .within context (.access path.display cause) ∧
      e.rootCause = .access path.display cause ∧
      ∃ a ∈ algorithms, (course.during a).read path = .error cause

theorem SourceRead.allOrNothing {σ : Type} {course : Course} {path : Path}
    {missing : MissingInput} {context : Algorithm → String} {algorithms : List Algorithm}
    {before : σ} {fill : SortedMap String → σ} {outcome : Outcome σ Unit}
    (ascending : (algorithms.map Algorithm.name).Pairwise (· < ·))
    (read : SourceRead course path missing context algorithms before fill
      outcome.result outcome.state) :
    AllOrNothing course path missing algorithms before fill outcome := by
  obtain ⟨result, state, events⟩ := outcome
  dsimp only at read
  cases read with
  | absent absent => constructor <;> simp [absent, eq_comm]
  | @failed cause front back a there split earlier failed =>
    have used : a ∈ algorithms := by simp [split]
    have unread : ¬ ∀ b ∈ algorithms, ∃ bytes, (course.during b).read path = .ok bytes := by
      intro all
      obtain ⟨bytes, read⟩ := all a used
      rw [failed] at read
      cases read
    constructor
    case succeeds_iff => simp [unread]
    case filled => simp
    case unchanged => simp
    case missing_iff => simp [there]
    case inaccessible =>
      rintro e ⟨⟩ -
      exact ⟨_, cause, rfl, rfl, a, used, failed⟩
  | @filled contents there read =>
    constructor
    case succeeds_iff => simpa [there] using fun a used => ⟨contents a, read a used⟩
    case filled => exact fun _ => ⟨contents, _, read, entries_checksumsOf contents ascending, rfl⟩
    case unchanged => simp
    case missing_iff => simp [there]
    case inaccessible => simp

/-- A file system that stays as it is gives the digests of the one contents of the path. -/
theorem sourceChecksums_of_still {fs : FileSystem} {path : Path} {contents : List UInt8}
    (read : fs.read path = .ok contents) (context : Algorithm → String)
    (algorithms : List Algorithm) :
    sourceChecksums fs.still.during path context algorithms =
      .ok (checksumsOf algorithms fun _ => contents) :=
  sourceChecksums_of_read fun _ _ => read

theorem File.readSource_of_read {fs : FileSystem} {path : Path} {contents : List UInt8}
    (read : fs.read path = .ok contents) (f : File) :
    f.readSource fs path =
      ⟨.ok (), { f with
          checksums := checksumsOf [.sha1, .sha256, .sha512] fun _ => contents,
          sourceFile := path.display },
        [.fileHashed path.display]⟩ := by
  rw [readSource, readSourceDuring, sourceChecksums_of_still read, if_neg]
  simp [FileSystem.still, FileSystem.pathExists_of_read read]

theorem Package.readSource_of_read {fs : FileSystem} {path : Path} {contents : List UInt8}
    (read : fs.read path = .ok contents) (p : Package) :
    (p.readSource fs path).result = .ok () ∧
      (p.readSource fs path).state.info.checksums =
        checksumsOf [.sha256, .sha512] fun _ => contents := by
  rw [readSource, readSourceDuring, sourceChecksums_of_still read, if_neg]
  · exact ⟨rfl, rfl⟩
  · simp [FileSystem.still, FileSystem.pathExists_of_read read]

/-- The checksums of the file are those of a source that was taken in. -/
def File.FromSource (f : File) : Prop :=
  ∃ (g : File) (course : Course) (path : Path), (g.readSourceDuring course path).result = .ok () ∧
    f.checksums = (g.readSourceDuring course path).state.checksums

theorem File.FromSource.checksum?_ne_none {f : File} (taken : f.FromSource) (a : Algorithm) :
    f.checksum? a ≠ none := by
  obtain ⟨g, course, path, done, same⟩ := taken
  obtain ⟨sum, found, -⟩ := g.checksum?_readSourceDuring done a
  rw [checksum?] at found ⊢
  rw [same, found]
  simp

/-- A package without other packages can be rendered if its files were taken in. -/
theorem Package.render_of_filesFromSource {p : Package} (named : p.id ≠ "")
    (packages : p.packages = .nil) (dependencies : p.dependencies = .nil)
    (some_files : p.files.values ≠ []) (taken : ∀ f ∈ p.files.values, f.FromSource) :
    ∃ text, p.render.result = .ok text := by
  have sound : ¬ p.Defective := by
    rintro (unnamed | ⟨-, none | ⟨f, member, missing⟩⟩)
    · exact named unnamed.1
    · exact some_files none
    · exact (taken f member).checksum?_ne_none .sha1 missing
  obtain ⟨verification, prepared⟩ := prepare_ok_iff.mpr sound
  rw [render_result, prepared, packages, dependencies, Children.render_result_nil,
    Children.render_result_nil]
  exact ⟨_, rfl⟩

/-- Reading a source fills in a file or a package with the digests of its bytes, or else changes
nothing and tells whether the path is missing or what kept it from being read. A readable path gives
both the same digests, and a package of such files can be rendered. -/
theorem source_is_taken_whole_or_not_at_all :
    (∀ (course : Course) (path : Path) (f : File),
      AllOrNothing course path (.fileSource path.display) [.sha1, .sha256, .sha512] f
        (fun checksums => { f with checksums, sourceFile := path.display })
        (f.readSourceDuring course path)) ∧
    (∀ (course : Course) (path : Path) (p : Package),
      AllOrNothing course path (.packageSource path.display) [.sha256, .sha512] p
        (fun checksums => { p with info := { p.info with
          checksums, sourceFile := path.display, fileName := (p.options.relativePath path).1 } })
        (p.readSourceDuring course path)) ∧
    (∀ (fs : FileSystem) (path : Path) (contents : List UInt8) (f : File) (p : Package),
      fs.read path = .ok contents →
        (f.readSource fs path).result = .ok () ∧ (p.readSource fs path).result = .ok () ∧
        (f.readSource fs path).state.checksum? .sha1 = some (Algorithm.sha1.hash contents) ∧
        ∀ a ∈ [Algorithm.sha256, .sha512],
          (f.readSource fs path).state.checksum? a = some (a.hash contents) ∧
          (p.readSource fs path).state.info.checksums.find? a.name = some (a.hash contents)) ∧
    ∀ p : Package, p.id ≠ "" → p.packages = .nil → p.dependencies = .nil → p.files.values ≠ [] →
      (∀ f ∈ p.files.values, f.FromSource) → ∃ text, p.render.result = .ok text := by
  refine ⟨fun course path f => ?_, fun course path p => ?_, fun fs path contents f p read => ?_, ?_⟩
  · exact (f.sourceRead course path).allOrNothing (by decide)
  · exact (p.sourceRead course path).allOrNothing (by decide)
  · obtain ⟨done, sums⟩ := p.readSource_of_read read
    rw [f.readSource_of_read read, sums]
    simp [done, File.checksum?, find?_checksumsOf]
  · intro p named packages dependencies some_files taken
    exact p.render_of_filesFromSource named packages dependencies some_files taken

/-- A disk with one source on it, in the working directory. -/
def sourceDisk : FileSystem :=
  (FileSystem.bare [Text.Utf8.encode "build"]).addFile (.ofString "main.c") [97, 98, 99]

theorem sourceDisk_hasFile : sourceDisk.HasFile
    [Text.Utf8.encode "build", Text.Utf8.encode "main.c"] (.ok [97, 98, 99]) where
  listed := rfl
  clear front _ other := by
    have files : sourceDisk.files =
        [([Text.Utf8.encode "build", Text.Utf8.encode "main.c"], .ok [97, 98, 99])] := rfl
    rw [files, List.lookup_cons, beq_false_of_ne other, List.lookup_nil]
  named := by
    simp only [List.forall_mem_cons]
    refine ⟨?_, ?_, by simp⟩
    · exact ⟨by decide, by decide, by decide, by decide, by decide, by decide⟩
    · exact ⟨by decide, by decide, by decide, by decide, by decide, by decide⟩

theorem read_sourceDisk : sourceDisk.read (.ofString "/build/main.c") = .ok [97, 98, 99] :=
  FileSystem.read_absolute sourceDisk_hasFile (by simp) (by decide)

/-- The source can no longer be read when its last digest is taken. -/
def lostSource : Course where
  first := sourceDisk
  during
    | .sha512 => { sourceDisk with
        files := sourceDisk.files.map fun f => (f.1, .error (.raised .other "Input/output error")) }
    | _ => sourceDisk

/-- A package whose one file was taken in from the disk. -/
def packageFromDisk : Package :=
  { Package.ofInfo { name := "app", id := "Package-app", filesAnalyzed := true } with
    files := .ofList [("File-main",
      ((File.named "main.c").readSource sourceDisk (.ofString "/build/main.c")).state)]
    options := ⟨.ofString "/build"⟩ }

theorem relativePath_packageFromDisk :
    (packageFromDisk.options.relativePath (.ofString "/build/main.c")).1 = "main.c" := by
  decide

/-- Two digests that were taken already are not kept, and a path that leads nowhere is told. On a
disk that stays, the source is told from the working directory, and the package of the file can be
rendered. -/
theorem source_is_taken_whole_or_not_at_all_of_lostSource :
    let f := (File.named "main.c").withChecksum .sha1 "00"
    let path := Path.ofString "/build/main.c"
    lostSource.first.pathExists path = true ∧
      (lostSource.during .sha1).read path = .ok [97, 98, 99] ∧
      (f.readSourceDuring lostSource path).state = f ∧
      (∃ e, (f.readSourceDuring lostSource path).result = .error e ∧
        e.rootCause = .access path.display (.raised .other "Input/output error")) ∧
      (f.readSourceDuring lostSource (.ofString "/build/lost.c")).result =
        .error (.missingInput (.fileSource "/build/lost.c")) ∧
      (packageFromDisk.readSource sourceDisk path).result = .ok () ∧
      (packageFromDisk.readSource sourceDisk path).state.info.fileName = "main.c" ∧
      ∃ text, packageFromDisk.render.result = .ok text := by
  intro f path
  have there : lostSource.first.pathExists path = true :=
    FileSystem.pathExists_of_read read_sourceDisk
  have lost : (lostSource.during .sha512).read path =
      .error (.raised .other "Input/output error") := rfl
  obtain ⟨ofFile, ofPackage, ofStill, rendering⟩ := source_is_taken_whole_or_not_at_all
  obtain ⟨fileTaken, packageTaken, -⟩ :=
    ofStill sourceDisk path _ (File.named "main.c") packageFromDisk read_sourceDisk
  have whole := ofFile lostSource path f
  have rendered : ∃ text, packageFromDisk.render.result = .ok text := by
    have own : packageFromDisk.files.values =
      [((File.named "main.c").readSource sourceDisk path).state] := rfl
    apply rendering packageFromDisk (by decide) rfl rfl
    · simp [own]
    · intro g member
      rw [own, List.mem_singleton] at member
      exact ⟨File.named "main.c", sourceDisk.still, path, fileTaken,
        congrArg File.checksums member⟩
  have missing : (f.readSourceDuring lostSource (.ofString "/build/lost.c")).result =
      .error (.missingInput (.fileSource "/build/lost.c")) := by
    apply ((ofFile lostSource _ f).missing_iff _).mpr
    rw [Path.display_ofString]
    exact ⟨rfl, rfl⟩
  have told : (packageFromDisk.readSource sourceDisk path).state.info.fileName = "main.c" := by
    obtain ⟨_, _, -, -, state⟩ :=
      (ofPackage sourceDisk.still path packageFromDisk).filled packageTaken
    rw [Package.readSource, state]
    exact relativePath_packageFromDisk
  cases result : (f.readSourceDuring lostSource path).result with
  | ok _ =>
    obtain ⟨bytes, read⟩ := (whole.succeeds_iff.mp result).2 .sha512 (by simp)
    rw [lost] at read
    cases read
  | error e =>
    obtain ⟨context, cause, -, root, a, -, failed⟩ := whole.inaccessible e result there
    refine ⟨there, read_sourceDisk, whole.unchanged e result, ⟨e, rfl, ?_⟩, missing, packageTaken,
      told, rendered⟩
    have same : cause = .raised .other "Input/output error" := by
      cases a with
      | sha512 => exact Except.error.inj (failed.symm.trans lost)
      | sha1 => exact absurd (failed.symm.trans read_sourceDisk) (by simp)
      | sha256 => exact absurd (failed.symm.trans read_sourceDisk) (by simp)
    rw [root, same]

end BillOfMaterials
