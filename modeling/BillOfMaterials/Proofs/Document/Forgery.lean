import BillOfMaterials.Proofs.Document.Unambiguous

/-!
# Forged fields

The stanza of a file prints every value as it is, so a value of several lines can hold lines that
read like fields of their own. As long as none does, the fields can be read back from the text. The
copyright text comes last and may hold anything.
-/
namespace BillOfMaterials

/-- Behind a line end, the value goes on like a field under one of the tags. -/
def Forges (tags : List String) (value : String) : Prop :=
  ∃ tag ∈ tags, '\n' :: (tag ++ ": ").toList <:+: value.toList

instance (tags : List String) (value : String) : Decidable (Forges tags value) :=
  inferInstanceAs (Decidable (∃ tag ∈ tags, _))

section Stanzas

variable {tags : List String}

/-- What is left to read begins with a field under one of the tags. -/
def Opens (tags : List String) (x : List Char) : Prop :=
  ∃ tag ∈ tags, (tag ++ ": ").toList <+: x

theorem OneLine.not_forges {value : String} (h : OneLine value) : ¬ Forges tags value := by
  rintro ⟨tag, -, held⟩
  exact h (held.mem (List.mem_cons_self ..))

/-- Values that forge no field end where the next field begins. -/
theorem split_at_field {a b : String} {x y : List Char} (lines : ∀ tag ∈ tags, OneLine tag)
    (ha : ¬ Forges tags a) (hb : ¬ Forges tags b) (hx : Opens tags x) (hy : Opens tags y)
    (h : a.toList ++ '\n' :: x = b.toList ++ '\n' :: y) : a = b ∧ x = y := by
  have ended {front back : List Char} {value : String} {x y : List Char} (next : Opens tags x)
      (honest : ¬ Forges tags value) (longer : value.toList = front ++ back)
      (rest : '\n' :: x = back ++ '\n' :: y) : back = [] := by
    obtain ⟨tag, known, behind, rfl⟩ := next
    have line : '\n' ∉ (tag ++ ": ").toList := (lines tag known).append (by decide)
    exact eq_nil_of_not_infix line (fun held => honest ⟨tag, known, longer.symm ▸ held⟩) rest
  have same : a.toList = b.toList := by
    rcases List.append_eq_append_iff.mp h with ⟨c, longer, rest⟩ | ⟨c, longer, rest⟩
    · rw [longer, ended hx hb longer rest, List.append_nil]
    · rw [longer, ended hy ha longer rest, List.append_nil]
  rw [same] at h
  exact ⟨String.toList_inj.mp same, (List.cons.inj (List.append_cancel_left h)).2⟩

/-- Fields that forge none, and a last one with any value, which alone has the tag `last`. -/
inductive Stanza.Candid (tags : List String) (last : String) : Stanza → Prop
  | last (value : String) : Candid tags last [⟨last, value⟩]
  | field {f : Field} {rest : Stanza} (known : f.tag ∈ tags) (other : f.tag ≠ last)
      (honest : ¬ Forges tags f.value) (h : Candid tags last rest) : Candid tags last (f :: rest)

namespace Stanza

variable {last : String} {s t front : Stanza}

theorem Candid.opens (closing : last ∈ tags) (hs : Candid tags last s) :
    Opens tags s.render.toList := by
  have start (f : Field) (rest : Stanza) (known : f.tag ∈ tags) :
      Opens tags (render (f :: rest)).toList := by
    have text := toList_render_cons_append f rest []
    rw [List.append_nil, Field.toList_line] at text
    exact ⟨f.tag, known, by simp [text]⟩
  cases hs with
  | last value => exact start _ _ closing
  | field known => exact start _ _ known

/-- Candid stanzas with the same text are the same. -/
theorem Candid.eq_of_render_eq (closing : last ∈ tags) (tagged : ∀ tag ∈ tags, isTag tag = true)
    (lines : ∀ tag ∈ tags, OneLine tag) (hs : Candid tags last s) (ht : Candid tags last t)
    (h : s.render = t.render) : s = t := by
  have chars := congrArg (fun text => text.toList ++ []) h
  induction hs generalizing t with
  | last value =>
    cases ht with
    | last value' =>
      rw [toList_render_cons_append, toList_render_cons_append] at chars
      have values := (Field.line_inj (tagged _ closing) (tagged _ closing) chars).2
      have same : value = value' := String.toList_inj.mp (List.append_cancel_right values)
      rw [same]
    | field known other =>
      rw [toList_render_cons_append, toList_render_cons_append] at chars
      have tags := (Field.line_inj (tagged _ closing) (tagged _ known) chars).1
      exact absurd tags.symm other
  | @field f rest known other honest inner ih =>
    cases ht with
    | last value' =>
      rw [toList_render_cons_append, toList_render_cons_append] at chars
      exact absurd (Field.line_inj (tagged _ known) (tagged _ closing) chars).1 other
    | @field g rest' known' _ honest' inner' =>
      rw [toList_render_cons_append, toList_render_cons_append] at chars
      have parts := Field.line_inj (tagged _ known) (tagged _ known') chars
      simp only [List.append_nil] at parts
      have values := split_at_field lines honest honest' (inner.opens closing)
        (inner'.opens closing) parts.2
      rw [Field.ext parts.1 values.1,
        ih inner' (String.toList_inj.mp values.2) (by simp [values.2])]

theorem candid_append (h : ∀ f ∈ front, f.tag ∈ tags ∧ f.tag ≠ last ∧ ¬ Forges tags f.value)
    (value : String) : Candid tags last (front.push last value) := by
  induction front with
  | nil => exact .last value
  | cons f front ih =>
    obtain ⟨known, other, honest⟩ := h f (List.mem_cons_self ..)
    exact .field known other honest (ih fun g member => h g (List.mem_cons_of_mem _ member))

end Stanza

end Stanzas

namespace File

variable {f g : File}

/-- The tags of the fields that may stand in front of the copyright text. -/
def lineTags : List String :=
  ["FileName", "SPDXID", "FileChecksum", "LicenseConcluded", "LicenseInfoInFile"]

def tags : List String := lineTags ++ ["FileCopyrightText"]

/-- No value in front of the copyright text holds a line, behind its first one, that begins like a
field of a file. -/
def Candid (f : File) : Prop :=
  ∀ field ∈ f.stanza, field.tag ≠ "FileCopyrightText" → ¬ Forges tags field.value

instance (f : File) : Decidable f.Candid := inferInstanceAs (Decidable (∀ field ∈ f.stanza, _))

theorem tag_of_mem_checksumFields {tag : String} {checksums : SortedMap String} {field : Field}
    (member : field ∈ checksumFields tag checksums) : field.tag = tag := by
  rw [checksumFields, List.mem_map] at member
  obtain ⟨_, -, rfl⟩ := member
  rfl

theorem stanza_eq_push (f : File) : ∃ (front : Stanza) (text : String),
    (∀ field ∈ front, field.tag ∈ lineTags) ∧ f.stanza = front.push "FileCopyrightText" text := by
  refine ⟨_, _, fun field member => ?_, rfl⟩
  rw [Stanza.pushOr, Stanza.pushOr, Stanza.mem_push, Stanza.mem_push, List.mem_append,
    Stanza.mem_pushSome, Stanza.mem_pushSome] at member
  rcases member with ((((none | ⟨-, rfl⟩) | ⟨-, rfl⟩) | sum) | rfl) | rfl
  · cases none
  · simp [lineTags]
  · simp [lineTags]
  · rw [tag_of_mem_checksumFields sum]
    simp [lineTags]
  · simp [lineTags]
  · simp [lineTags]

theorem Candid.stanza (h : f.Candid) : f.stanza.Candid tags "FileCopyrightText" := by
  obtain ⟨front, text, known, same⟩ := f.stanza_eq_push
  have inner : "FileCopyrightText" ∉ lineTags := by decide
  rw [same]
  refine Stanza.candid_append (fun field member => ?_) text
  have other : field.tag ≠ "FileCopyrightText" := fun closing => inner (closing ▸ known field member)
  refine ⟨List.mem_append_left _ (known field member), other, h field ?_ other⟩
  rw [same]
  exact List.mem_append_left _ member

/-- Values of one line each forge nothing. -/
theorem candid_of_oneLine (lines : ∀ s ∈ f.strings, OneLine s) : f.Candid := by
  obtain ⟨front, plain, same⟩ := f.plain_stanza lines
  intro field member other
  rw [same, Stanza.pushTextOr, Stanza.mem_push] at member
  rcases member with inside | rfl
  · exact (plain field inside).2.not_forges
  · exact absurd rfl other

/-- Files that forge no field have the same text only if they have the same fields. -/
theorem stanza_eq_of_same_text (hf : f.Candid) (hg : g.Candid) (h : f.render = g.render) :
    f.stanza = g.stanza :=
  hf.stanza.eq_of_render_eq (by decide) (by decide) (by decide) hg.stanza h

/-- A name of two lines, a copyright text that reads like an identifier, and data that the text does
not show. -/
theorem stanza_eq_of_same_text_with_notice :
    let f : File := { name := "a\nb", copyrightText := "c\nSPDXID: File-1" }
    let g : File := { f with fileName := "a", sourceFile := "b" }
    f.Candid ∧ g.Candid ∧ f.render = g.render ∧ f.stanza = g.stanza := by
  intro f g
  have hf : f.Candid := by decide +kernel
  have hg : g.Candid := by decide +kernel
  exact ⟨hf, hg, rfl, stanza_eq_of_same_text hf hg rfl⟩

/-- A checksum of two lines reads like two checksums. -/
theorem checksum_forges_checksum :
    ¬ ∀ f g : File, f.render = g.render → f.stanza = g.stanza := by
  intro unforged
  let f : File := File.withChecksum {} .sha1 "00\nFileChecksum: SHA256: 11"
  let g : File := (File.withChecksum {} .sha1 "00").withChecksum .sha256 "11"
  have same : f.stanza = g.stanza := unforged f g rfl
  have count : f.stanza.length = g.stanza.length := congrArg List.length same
  exact absurd count (by decide)

end File
end BillOfMaterials
