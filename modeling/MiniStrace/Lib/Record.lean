/-
  Lib/Record.lean --- records printed as labels and values.

  THE FORMAT.  A record is printed as the label and the value of each field in turn, and a
  closing text.  The labels are fixed; the values depend on what is printed.

  THE POINT.  If no value has a byte in it with which the next label, or the closing text,
  begins, then the text gives back every value, and where it ends.
-/
import MiniStrace.Lib.Text

set_option autoImplicit false

namespace CLib

/-- A byte at which values end is the first of the text. -/
def opensWith (stop : Byte → Bool) (t : Text) : Bool := t.head?.any stop

/-- Two values up to where they end. -/
theorem append_opensWith_inj {stop : Byte → Bool} {s s' r r' : Text}
    (hs : ∀ b ∈ s, stop b = false) (hs' : ∀ b ∈ s', stop b = false) (hr : opensWith stop r = true)
    (hr' : opensWith stop r' = true) (h : s ++ r = s' ++ r') : s = s' ∧ r = r' := by
  have hvalue : ∀ {s r : Text}, (∀ b ∈ s, stop b = false) → opensWith stop r = true →
      (s ++ r).takeWhile (fun b => !stop b) = s := by
    intro s r hs hr
    rw [List.takeWhile_append_of_pos (by simpa using hs)]
    cases r with
    | nil => exact List.append_nil s
    | cons b r =>
        have hb : stop b = true := hr
        rw [List.takeWhile_cons_of_neg (by simp [hb]), List.append_nil]
  have hsame : s = s' := by
    rw [← hvalue hs hr, h, hvalue hs' hr']
  subst hsame
  exact ⟨rfl, List.append_cancel_left h⟩

/-- A field: what stands before its value, and how the value is printed. -/
structure RecordField (α : Type) where
  label : Text
  value : α → Text

/-- The fields in the order of the text, and what stands behind the last. -/
structure Record (α : Type) where
  fields : List (RecordField α)
  close : Text

namespace Record

variable {α : Type}

def text (r : Record α) (x : α) : Text :=
  (r.fields.flatMap fun f => f.label ++ f.value x) ++ r.close

/-- Values end where the next label, or the closing text, begins. -/
structure Delimited (stop : Byte → Bool) (r : Record α) : Prop where
  values : ∀ f ∈ r.fields, ∀ x, ∀ b ∈ f.value x, stop b = false
  labels : ∀ f ∈ r.fields.tail, opensWith stop f.label = true
  close : opensWith stop r.close = true

theorem text_cons (f : RecordField α) (fs : List (RecordField α)) (close : Text) (x : α) :
    text ⟨f :: fs, close⟩ x = f.label ++ (f.value x ++ text ⟨fs, close⟩ x) := by
  simp only [text, List.flatMap_cons, List.append_assoc]

/-- The record without its first field. -/
theorem Delimited.tail {stop : Byte → Bool} {f : RecordField α} {fs : List (RecordField α)}
    {close : Text} (h : Delimited stop ⟨f :: fs, close⟩) : Delimited stop ⟨fs, close⟩ where
  values := fun g hg => h.values g (List.mem_cons_of_mem f hg)
  labels := fun g hg => h.labels g (List.mem_of_mem_tail hg)
  close := h.close

/-- What follows the first value ends it. -/
theorem Delimited.opensWith_rest {stop : Byte → Bool} {f : RecordField α}
    {fs : List (RecordField α)} {close : Text} (h : Delimited stop ⟨f :: fs, close⟩) (x : α)
    (s : Text) : opensWith stop (text ⟨fs, close⟩ x ++ s) = true := by
  have happend : ∀ {t : Text} (t' : Text), opensWith stop t = true →
      opensWith stop (t ++ t') = true := by
    intro t t' ht
    cases t with
    | nil => cases ht
    | cons b t => exact ht
  cases fs with
  | nil => exact happend s h.close
  | cons g fs =>
      rw [text_cons, List.append_assoc]
      exact happend _ (h.labels g List.mem_cons_self)

/-- A record in front of anything: the values and the rest. -/
theorem Delimited.text_append_inj {stop : Byte → Bool} {r : Record α} (h : r.Delimited stop)
    {x y : α} {s s' : Text} (heq : r.text x ++ s = r.text y ++ s') :
    (∀ f ∈ r.fields, f.value x = f.value y) ∧ s = s' := by
  obtain ⟨fields, close⟩ := r
  induction fields with
  | nil => exact ⟨fun f hf => absurd hf List.not_mem_nil, List.append_cancel_left heq⟩
  | cons f fs ih =>
      rw [text_cons, text_cons, List.append_assoc, List.append_assoc, List.append_assoc,
        List.append_assoc] at heq
      obtain ⟨hvalue, hrest⟩ := append_opensWith_inj (h.values f List.mem_cons_self x)
        (h.values f List.mem_cons_self y) (h.opensWith_rest x s) (h.opensWith_rest y s')
        (List.append_cancel_left heq)
      obtain ⟨hvalues, hs⟩ := ih h.tail hrest
      refine ⟨fun g hg => ?_, hs⟩
      rcases List.mem_cons.mp hg with rfl | hg
      · exact hvalue
      · exact hvalues g hg

theorem text_congr {r : Record α} {x y : α} (h : ∀ f ∈ r.fields, f.value x = f.value y) :
    r.text x = r.text y := by
  have hmap : ∀ f ∈ r.fields, f.label ++ f.value x = f.label ++ f.value y := fun f hf => by
    rw [h f hf]
  rw [text, text, List.flatMap_congr hmap]

end Record

end CLib
