import BillOfMaterials.Verification

/-!
# Rendering packages

The document of a package: its own stanza, then those of its files, sub-packages and dependencies
in ascending key order, each closed by its relationship to the package. Rendering sums up the files
of every package anew and stops at the first package that cannot be rendered; summaries found before
that are kept.
-/
namespace BillOfMaterials

namespace Package

/-- The fields of a package, given what its files amount to. -/
def fields (info : PackageInfo) (verification : Verification) : Stanza :=
  let named := (Stanza.pushSome [] "PackageName" info.name).pushSome "SPDXID" info.id
  let summed : Stanza := named ++ checksumFields "PackageChecksum" info.checksums
  let located := (summed.pushOr "PackageDownloadLocation" info.downloadLocation .none).push
    "FilesAnalyzed" (if info.filesAnalyzed then "true" else "false")
  let verified := ((located.pushSome "PackageVerificationCode" verification.code).pushOr
    "PackageLicenseConcluded" info.licenseConcluded .noAssertion).pushSome
    "PackageFileName" info.fileName
  let rolledUp : Stanza := verified ++
    verification.licenses.map fun tag => ⟨"PackageLicenseInfoFromFiles", tag⟩
  let declared := (rolledUp.pushSome "PackageVersion" info.version).pushOr
    "PackageLicenseDeclared" info.licenseDeclared .noAssertion
  declared.pushTextOr "PackageCopyrightText" info.copyrightText .noAssertion

/-- The stanza as the last rendering left it. -/
def stanza (p : Package) : Stanza := fields p.info p.verification

/-- What the files amount to. Where files are not analysed there is no code and no licence. -/
def verify (info : PackageInfo) (files : SortedMap File) : Except Error Verification :=
  if info.filesAnalyzed then Verification.ofFiles files.values
  else .ok ⟨"", [Placeholder.none.text]⟩

/-- What the package itself, its descendants aside, has to be rendered with. Children need an
identifier to relate to. -/
def prepare (p : Package) : Except Error Verification :=
  if p.id.isEmpty && p.hasChildren then .error (.missingInput (.ownerId p.name))
  else verify p.info p.files

def renderFiles (owner : String) (files : List File) : String :=
  String.join (files.map fun f => f.render ++ Relationship.contains.line owner f.id)

def renderContext (child : String) : String := "rendering pkg " ++ child

end Package

mutual

def Package.render : Package → Outcome Package String
  | ⟨info, verification, files, packages, dependencies, options⟩ =>
    let unchanged : Package := ⟨info, verification, files, packages, dependencies, options⟩
    match unchanged.prepare with
    | .error e => ⟨.error e, unchanged, []⟩
    | .ok verification =>
      let inner := packages.render info.id .contains
      match inner.result with
      | .error e =>
        ⟨.error e, ⟨info, verification, files, inner.state, dependencies, options⟩, inner.events⟩
      | .ok packagesText =>
        let outer := dependencies.render info.id .dependsOn
        let state : Package := ⟨info, verification, files, inner.state, outer.state, options⟩
        match outer.result with
        | .error e => ⟨.error e, state, inner.events ++ outer.events⟩
        | .ok dependenciesText =>
          ⟨.ok (header ("Package: " ++ info.name) ++ (Package.fields info verification).render
              ++ Package.renderFiles info.id files.values ++ packagesText ++ dependenciesText),
            state,
            inner.events ++ outer.events
              ++ [.packageRendered info.id files.size packages.size dependencies.size]⟩

/-- The documents of the children of `owner`, each with its relationship. -/
def Children.render {floor : Option String} (owner : String) (r : Relationship) :
    Children floor → Outcome (Children floor) String
  | .nil => ⟨.ok "", .nil, []⟩
  | .cons key above child rest =>
    let first := child.render
    match first.result with
    | .error e =>
      ⟨.error (.within (Package.renderContext child.info.name) e),
        .cons key above first.state rest, first.events⟩
    | .ok text =>
      let others := rest.render owner r
      match others.result with
      | .error e =>
        ⟨.error e, .cons key above first.state others.state, first.events ++ others.events⟩
      | .ok more =>
        ⟨.ok (text ++ r.line owner child.info.id ++ more),
          .cons key above first.state others.state, first.events ++ others.events⟩

end
end BillOfMaterials
