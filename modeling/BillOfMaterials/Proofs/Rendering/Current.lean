import BillOfMaterials.Proofs.Digest.Form
import BillOfMaterials.Proofs.Rendering.FirstDefect
import BillOfMaterials.Proofs.Tree.InStep

/-!
# Codes that outlive their files

A rendering writes the code of a package once it has found what the files amount to. If it is stopped
before that, by a defect of the package itself, the code of an earlier rendering stays, whatever has
become of the files since.
-/
namespace BillOfMaterials.Package

variable {p : Package} {v : Verification} {request : Request} {requests : List Request}

/-- The files are analysed, and the code is what they are summed up to. -/
def Gives (p : Package) (code : String) : Prop :=
  p.info.filesAnalyzed = true ∧ ∃ v, Verification.ofFiles p.files.values = .ok v ∧ v.code = code

/-- The code of the package is empty or that of the files it holds. -/
def Current (p : Package) : Prop := p.verification.code = "" ∨ p.Gives p.verification.code

/-- The request is to render the package itself, and its files are found to amount to `v`. -/
def Finds (v : Verification) (p : Package) (request : Request) : Prop :=
  request = ([], .render) ∧ p.prepare = .ok v

def FindsSome (p : Package) (request : Request) : Prop := ∃ v, Finds v p request

/-- Of the requests that find what the files of the package amount to, the last one finds `v`. -/
def LastFinds (p : Package) (requests : List Request) (v : Verification) : Prop :=
  ∃ front request back, requests = front ++ request :: back ∧ Finds v (p.serve front) request ∧
    ¬ (p.serve (front ++ [request])).Meets FindsSome back

section Rendering

theorem info_render (p : Package) : p.render.state.info = p.info := by
  have own (q : Package) : q.lasting.info = q.info := by
    cases q
    rfl
  rw [← own, p.lasting_render, own]

theorem gives_render (p : Package) (code : String) : p.render.state.Gives code ↔ p.Gives code := by
  rw [Gives, Gives, p.info_render, p.files_render]

/-- A code that has been found is that of the files, unless there was none to find. -/
theorem gives_of_prepare (h : p.prepare = .ok v) : v.code = "" ∨ p.Gives v.code := by
  have verified := verify_of_prepare h
  by_cases analyzed : p.info.filesAnalyzed = true
  · rw [verify_of_analyzed analyzed] at verified
    exact .inr ⟨analyzed, v, verified, rfl⟩
  · rw [verify, if_neg analyzed] at verified
    rw [← Except.ok.inj verified]
    exact .inl rfl

/-- Files that cannot be summed up have no code. -/
theorem Unsummable.not_gives (h : p.Unsummable) (code : String) : ¬ p.Gives code := by
  rintro ⟨-, v, summed, -⟩
  exact (unsummable_iff.mp h).2 ⟨v, summed⟩

theorem current_render (h : ¬ p.Defective) : p.render.state.Current := by
  obtain ⟨v, prepared⟩ := prepare_ok_iff.mpr h
  rw [Current, gives_render, verification_render prepared]
  exact gives_of_prepare prepared

theorem render_of_defective (h : p.Defective) :
    p.render.state = p ∧ ∃ e, p.render.result = .error e := by
  cases prepared : p.prepare with
  | ok v => exact absurd h (prepare_ok_iff.mp ⟨v, prepared⟩)
  | error e =>
    rw [render_of_prepare_error prepared]
    exact ⟨rfl, e, rfl⟩

end Rendering

section Requests

theorem verification_add (item : Attachment) : (p.add item).state.verification = p.verification := by
  have step := p.added item
  generalize p.add item = outcome at step ⊢
  cases step with
  | refused e => rfl
  | file resolved => rfl
  | @package r child stored events accepted => cases r <;> rfl

theorem verification_step_of_finds (h : Finds v p request) :
    (p.reach request.2.perform request.1).2.verification = v := by
  obtain ⟨rfl, prepared⟩ := h
  exact verification_render prepared

/-- No other request writes a code, nor does a rendering that a defect stops. -/
theorem verification_step (h : ¬ p.FindsSome request) :
    (p.reach request.2.perform request.1).2.verification = p.verification := by
  obtain ⟨hops, c⟩ := request
  cases hops with
  | cons hop more =>
    rcases reach_cons_state c.perform hop more p with ⟨-, stuck⟩ | ⟨_, _, _, _, -, done, -, -⟩
    · rw [stuck]
    · rw [done]
      cases hop.1 <;> rfl
  | nil =>
    change (c.perform p).2.verification = p.verification
    cases c with
    | add item => exact verification_add item
    | edit change => rfl
    | setOptions options => rfl
    | readSource fs path =>
      rw [Call.perform, readSource, readSourceDuring]
      split
      · rfl
      · split <;> rfl
    | render =>
      rw [Call.perform]
      cases prepared : p.prepare with
      | ok v => exact absurd ⟨v, rfl, prepared⟩ h
      | error e => rw [render_of_prepare_error prepared]

theorem verification_serve (h : ¬ p.Meets FindsSome requests) :
    (p.serve requests).verification = p.verification := by
  induction requests generalizing p with
  | nil => rfl
  | cons request requests ih =>
    rw [meets_cons_iff, not_or] at h
    rw [serve_cons, ih h.2, verification_step h.1]

/-- The package keeps what its files were last found to amount to. -/
theorem LastFinds.verification_serve (h : p.LastFinds requests v) :
    (p.serve requests).verification = v := by
  obtain ⟨front, request, back, rfl, finds, none⟩ := h
  rw [List.append_cons, serve_append, Package.verification_serve none, serve_append]
  exact verification_step_of_finds finds

theorem LastFinds.cons (h : (p.reach request.2.perform request.1).2.LastFinds requests v) :
    p.LastFinds (request :: requests) v := by
  obtain ⟨front, request', back, rfl, finds, none⟩ := h
  exact ⟨request :: front, request', back, rfl, finds, none⟩

theorem exists_lastFinds (h : p.Meets FindsSome requests) :
    ∃ v, p.LastFinds requests v := by
  induction requests generalizing p with
  | nil => exact absurd h not_meets_nil
  | cons request requests ih =>
    by_cases later : (p.reach request.2.perform request.1).2.Meets FindsSome requests
    · obtain ⟨v, last⟩ := ih later
      exact ⟨v, last.cons⟩
    · obtain ⟨v, finds⟩ := (meets_cons_iff.mp h).resolve_right later
      exact ⟨v, [], request, requests, rfl, finds, later⟩

/-- A package that has started without a code has a current one exactly if what its files were last
found to amount to still holds. -/
theorem current_serve_iff (none : p.verification.code = "") :
    (p.serve requests).Current ↔
      ∀ v, p.LastFinds requests v → v.code = "" ∨ (p.serve requests).Gives v.code := by
  rw [Current]
  constructor
  · rintro current v last
    rwa [last.verification_serve] at current
  · intro holds
    by_cases found : p.Meets FindsSome requests
    · obtain ⟨v, last⟩ := exists_lastFinds found
      rw [last.verification_serve]
      exact holds v last
    · rw [verification_serve found]
      exact .inl none

end Requests

/-- A rendering leaves an outdated code only where a defect of the package itself stops it, and then
the package stays as it was. Whatever has been requested of a package that starts without children,
its code is the one that was last found: it is outdated unless it is empty or the files that the
package holds now give it. -/
theorem code_current_iff_kept_holds (info : PackageInfo) (options : Options)
    (requests : List Request) :
    let start := childless info {} options
    let p := start.serve requests
    (¬ p.Defective → p.render.state.Current) ∧
      (p.Defective → p.render.state = p ∧ ∃ e, p.render.result = .error e) ∧
      (p.render.state.Current ↔
        (p.Defective → ∀ v, start.LastFinds requests v → v.code = "" ∨ p.Gives v.code)) := by
  intro start p
  refine ⟨current_render, render_of_defective, ?_⟩
  rw [← current_serve_iff (p := start) rfl]
  by_cases defective : p.Defective
  · rw [(render_of_defective defective).1]
    exact (imp_iff_right defective).symm
  · exact iff_of_true (current_render defective) fun h => absurd h defective

/-- A file without a checksum joins a package whose only other file has been summed up. -/
theorem code_kept_after_failed_rendering :
    ¬ ∀ (info : PackageInfo) (requests : List Request),
      ((childless info {} {}).serve requests).render.state.Current := by
  intro current
  let app : PackageInfo := { name := "app", id := "Package-app", filesAnalyzed := true }
  let summed : File := { (File.named "a.c").withChecksum .sha1 "aa" with id := "File-a" }
  let bare : File := { File.named "b.c" with id := "File-b" }
  let requests : List Request :=
    [([], .add (.file summed)), ([], .render), ([], .add (.file bare))]
  have kept := current app requests
  have unsummable : ((childless app {} {}).serve requests).Unsummable := by decide +kernel
  rw [(render_of_defective (.inr unsummable)).1] at kept
  rcases kept with none | gives
  · exact (Algorithm.sha1.isDigest_hash _).ne_empty none
  · exact unsummable.not_gives _ gives

end BillOfMaterials.Package
