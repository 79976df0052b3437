import BillOfMaterials.File.Basic

/-!
# Legible stanzas

A stanza is written without lengths, so a reader has to see where its parts end. That works if every
value is one line, except that of the last field, which may be a text block whose text holds no
closing mark. Legible stanzas with the same text, and anything behind them, are the same.
-/
namespace BillOfMaterials

section Marks

variable {α : Type} {m : α} {a b x y : List α}

/-- Up to a mark that neither part holds, equal lists have equal parts. -/
theorem split_at_mark (ha : m ∉ a) (hb : m ∉ b) (h : a ++ m :: x = b ++ m :: y) :
    a = b ∧ x = y := by
  induction a generalizing b with
  | nil =>
    cases b with
    | nil => exact ⟨rfl, (List.cons.inj h).2⟩
    | cons c b =>
      rw [(List.cons.inj h).1] at hb
      exact absurd (List.mem_cons_self ..) hb
  | cons c a ih =>
    cases b with
    | nil =>
      rw [(List.cons.inj h).1] at ha
      exact absurd (List.mem_cons_self ..) ha
    | cons d b =>
      have heads := List.cons.inj h
      rw [List.mem_cons, not_or] at ha hb
      have tails := ih ha.2 hb.2 heads.2
      exact ⟨by rw [heads.1, tails.1], tails.2⟩

/-- A part that went on behind its end would hold there the `m` that ends the other and the mark
behind it. -/
theorem eq_nil_of_not_infix {mark c : List α} (hm : m ∉ mark) (hb : ¬ m :: mark <:+: a ++ c)
    (h : m :: (mark ++ x) = c ++ m :: y) : c = [] := by
  cases c with
  | nil => rfl
  | cons d c =>
    exfalso
    apply hb
    obtain ⟨rfl, behind⟩ := List.cons.inj h
    -- either the longer part holds the whole mark, or the mark holds the `m` behind that part
    rcases List.append_eq_append_iff.mp behind with ⟨e, inside, -⟩ | ⟨e, past, beyond⟩
    · rw [inside]
      exact ⟨a, e, by simp⟩
    · cases e with
      | nil =>
        rw [List.append_nil] at past
        rw [past]
        exact ⟨a, [], by simp⟩
      | cons f e =>
        rw [← (List.cons.inj beyond).1] at past
        rw [past] at hm
        simp at hm

/-- Up to a closing mark that neither part holds, equal lists have equal parts. The mark is set off
by an element of its own, so it cannot begin inside a part. -/
theorem split_at_block {mark : List α} (hm : m ∉ mark) (ha : ¬ mark <:+: a) (hb : ¬ mark <:+: b)
    (h : a ++ m :: (mark ++ x) = b ++ m :: (mark ++ y)) : a = b ∧ x = y := by
  have set_off {part : List α} (absent : ¬ mark <:+: part) : ¬ m :: mark <:+: part :=
    fun held => absent ((List.suffix_cons m mark).isInfix.trans held)
  have same : a = b := by
    rcases List.append_eq_append_iff.mp h with ⟨c, longer, rest⟩ | ⟨c, longer, rest⟩
    · rw [longer, eq_nil_of_not_infix hm (set_off (longer ▸ hb)) rest, List.append_nil]
    · rw [longer, eq_nil_of_not_infix hm (set_off (longer ▸ ha)) rest, List.append_nil]
  subst same
  exact ⟨rfl, List.append_cancel_left (List.cons.inj (List.append_cancel_left h)).2⟩

end Marks

def OneLine (s : String) : Prop := '\n' ∉ s.toList

instance (s : String) : Decidable (OneLine s) := inferInstanceAs (Decidable (¬ _))

/-- The text can stand in a text block without ending it. -/
def Unclosed (s : String) : Prop := ¬ "</text>".toList <:+: s.toList

instance (s : String) : Decidable (Unclosed s) := inferInstanceAs (Decidable (¬ _))

/-- A tag that ends at its colon and with which neither a header nor a relationship begins. -/
def isTag (tag : String) : Bool :=
  match tag.toList with
  | [] => false
  | c :: rest => c != '#' && c != 'R' && !(c :: rest).contains ':'

/-- What stands for a text of any number of lines: a placeholder or a text block. -/
inductive LegibleText : String → Prop
  | absent (placeholder : Placeholder) : LegibleText placeholder.text
  | block {text : String} (h : Unclosed text) : LegibleText (textBlock text)

/-- One-line fields, and a text as the last one, which alone has the tag `last`. -/
inductive Stanza.Legible (last : String) : Stanza → Prop
  | text {value : String} (h : LegibleText value) : Legible last [⟨last, value⟩]
  | field {f : Field} {rest : Stanza} (other : f.tag ≠ last) (tag : isTag f.tag = true)
      (line : OneLine f.value) (h : Legible last rest) : Legible last (f :: rest)

attribute [ext] Field

theorem colon_notMem_of_isTag {tag : String} (h : isTag tag = true) : ':' ∉ tag.toList := by
  rw [isTag] at h
  cases chars : tag.toList with
  | nil => simp
  | cons c rest =>
    simp only [chars, Bool.and_eq_true] at h
    simpa using h.2

theorem start_of_isTag {tag : String} (h : isTag tag = true) :
    ∃ c rest, tag.toList = c :: rest ∧ c ≠ '#' ∧ c ≠ 'R' := by
  rw [isTag] at h
  cases chars : tag.toList with
  | nil => simp [chars] at h
  | cons c rest =>
    simp only [chars, Bool.and_eq_true, bne_iff_ne] at h
    exact ⟨c, rest, rfl, h.1.1, h.1.2⟩

theorem Field.toList_line (f : Field) :
    f.line.toList = f.tag.toList ++ ':' :: ' ' :: (f.value.toList ++ ['\n']) := by
  simp [Field.line]

theorem Field.line_inj {f g : Field} (hf : isTag f.tag = true) (hg : isTag g.tag = true)
    {x y : List Char} (h : f.line.toList ++ x = g.line.toList ++ y) :
    f.tag = g.tag ∧ f.value.toList ++ '\n' :: x = g.value.toList ++ '\n' :: y := by
  simp only [Field.toList_line, List.append_assoc, List.cons_append, List.nil_append] at h
  have parts := split_at_mark (colon_notMem_of_isTag hf) (colon_notMem_of_isTag hg) h
  exact ⟨String.toList_inj.mp parts.1, (List.cons.inj parts.2).2⟩

theorem OneLine.split {a b : String} (ha : OneLine a) (hb : OneLine b) {x y : List Char}
    (h : a.toList ++ '\n' :: x = b.toList ++ '\n' :: y) : a = b ∧ x = y := by
  have parts := split_at_mark ha hb h
  exact ⟨String.toList_inj.mp parts.1, parts.2⟩

theorem Placeholder.oneLine_text (p : Placeholder) : OneLine p.text := by
  cases p <;> decide

theorem toList_textBlock (text : String) :
    (textBlock text).toList = "<text>".toList ++ (text.toList ++ '\n' :: "</text>".toList) := by
  simp [textBlock]

theorem Placeholder.text_append_ne_textBlock (p : Placeholder) (text : String) (x y : List Char) :
    p.text.toList ++ x ≠ (textBlock text).toList ++ y := by
  rw [toList_textBlock]
  intro h
  cases p
  · simp [Placeholder.text] at h
  · simp [Placeholder.text] at h

theorem LegibleText.split {a b : String} (ha : LegibleText a) (hb : LegibleText b)
    {x y : List Char} (h : a.toList ++ '\n' :: x = b.toList ++ '\n' :: y) : a = b ∧ x = y := by
  cases ha with
  | absent p =>
    cases hb with
    | absent q => exact p.oneLine_text.split q.oneLine_text h
    | block hb => exact (p.text_append_ne_textBlock _ _ _ h).elim
  | block ha =>
    cases hb with
    | absent q => exact (q.text_append_ne_textBlock _ _ _ h.symm).elim
    | block hb =>
      simp only [toList_textBlock, List.append_assoc, List.cons_append] at h
      have parts := split_at_block (by decide) ha hb (List.append_cancel_left h)
      exact ⟨by rw [String.toList_inj.mp parts.1], (List.cons.inj parts.2).2⟩

namespace Stanza

variable {last : String} {s t : Stanza}

theorem toList_render_nil : (render []).toList = ['\n'] := by
  simp [render, String.join]

theorem toList_render_cons_append (f : Field) (rest : Stanza) (x : List Char) :
    (render (f :: rest)).toList ++ x = f.line.toList ++ ((render rest).toList ++ x) := by
  simp [render, String.join_cons]

/-- A legible stanza can be read off the front of a text. -/
theorem Legible.split (tagged : isTag last = true) (hs : Legible last s) (ht : Legible last t)
    {x y : List Char} (h : s.render.toList ++ x = t.render.toList ++ y) : s = t ∧ x = y := by
  induction hs generalizing t with
  | text hs =>
    cases ht with
    | text ht =>
      rw [toList_render_cons_append, toList_render_cons_append] at h
      have values := hs.split ht (Field.line_inj tagged tagged h).2
      rw [toList_render_nil, List.cons_append, List.cons_append] at values
      exact ⟨by rw [values.1], (List.cons.inj values.2).2⟩
    | field other tag =>
      rw [toList_render_cons_append, toList_render_cons_append] at h
      exact absurd (Field.line_inj tagged tag h).1.symm other
  | field other tag line _ ih =>
    cases ht with
    | text ht =>
      rw [toList_render_cons_append, toList_render_cons_append] at h
      exact absurd (Field.line_inj tag tagged h).1 other
    | field _ tag' line' ht =>
      rw [toList_render_cons_append, toList_render_cons_append] at h
      have tags := Field.line_inj tag tag' h
      have values := line.split line' tags.2
      have rests := ih ht values.2
      exact ⟨by rw [Field.ext tags.1 values.1, rests.1], rests.2⟩

/-- No legible stanza begins like a header or a relationship. -/
theorem Legible.render_start (tagged : isTag last = true) (hs : Legible last s) :
    ∃ c rest, s.render.toList = c :: rest ∧ c ≠ '#' ∧ c ≠ 'R' := by
  have start (f : Field) (rest : Stanza) (h : isTag f.tag = true) :
      ∃ c more, (render (f :: rest)).toList = c :: more ∧ c ≠ '#' ∧ c ≠ 'R' := by
    obtain ⟨c, more, chars, mark, letter⟩ := start_of_isTag h
    have text := toList_render_cons_append f rest []
    rw [List.append_nil, Field.toList_line, chars] at text
    exact ⟨c, _, text, mark, letter⟩
  cases hs with
  | text => exact start _ _ tagged
  | field _ tag => exact start _ _ tag

/-- A tag that may stand in front of the last one. -/
def Inner (last tag : String) : Prop := tag ≠ last ∧ isTag tag = true

instance (last tag : String) : Decidable (Inner last tag) := inferInstanceAs (Decidable (_ ∧ _))

/-- One-line fields alone, all of which may stand in front of the last one. -/
def Plain (last : String) (s : Stanza) : Prop := ∀ f ∈ s, Inner last f.tag ∧ OneLine f.value

variable {tag value : String} {absent : Placeholder}

theorem plain_nil : Plain last [] := by
  intro f member
  cases member

theorem Plain.append (hs : Plain last s) (ht : Plain last t) : Plain last (s ++ t) := by
  intro f member
  rw [List.mem_append] at member
  exact member.elim (hs f) (ht f)

theorem Plain.push (hs : Plain last s) (inner : Inner last tag) (line : OneLine value) :
    Plain last (s.push tag value) := by
  apply hs.append
  intro f member
  rw [List.mem_singleton] at member
  rw [member]
  exact ⟨inner, line⟩

theorem Plain.pushSome (hs : Plain last s) (inner : Inner last tag) (line : OneLine value) :
    Plain last (s.pushSome tag value) := by
  rw [Stanza.pushSome]
  split
  · exact hs
  · exact hs.push inner line

theorem Plain.pushOr (hs : Plain last s) (inner : Inner last tag) (line : OneLine value) :
    Plain last (s.pushOr tag value absent) := by
  apply hs.push inner
  split
  · exact absent.oneLine_text
  · exact line

theorem Plain.legible_append (hs : Plain last s) (ht : Legible last t) : Legible last (s ++ t) := by
  induction s with
  | nil => exact ht
  | cons f s ih =>
    obtain ⟨inner, line⟩ := hs f (List.mem_cons_self ..)
    exact .field inner.1 inner.2 line (ih fun g member => hs g (List.mem_cons_of_mem _ member))

theorem Plain.legible_pushTextOr (hs : Plain last s) (unclosed : Unclosed value) :
    Legible last (s.pushTextOr last value absent) := by
  apply hs.legible_append
  apply Legible.text
  split
  · exact .absent absent
  · exact .block unclosed

end Stanza

end BillOfMaterials
