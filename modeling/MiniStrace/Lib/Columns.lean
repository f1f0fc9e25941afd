/-
  Lib/Columns.lean --- lines of blank-separated columns, each padded to a width.

  A column that is wider than its width pushes the others to the right, and stays apart from
  them by the blank between; so the entries are found again whatever their widths.
-/
import MiniStrace.Lib.Lines

set_option autoImplicit false

namespace CLib

/-- `%*s`. -/
def padLeft (width : Nat) (t : Text) : Text := List.replicate (width - t.length) 0x20 ++ t

/-- A text that fills a column: there is something in it, and neither a blank nor a newline. -/
structure IsEntry (t : Text) : Prop where
  ne_nil : t ≠ []
  noBlank : 0x20 ∉ t
  noNewline : 0x0a ∉ t

theorem isEntry_dec (n : Nat) : IsEntry (dec n) where
  ne_nil := numeral_ne_nil 10 n
  noBlank := fun h => absurd (mem_dec h).1 (by decide)
  noNewline := fun h => absurd (mem_dec h).1 (by decide)

theorem isEntry_decInt (v : Int) : IsEntry (decInt v) where
  ne_nil := by
    unfold decInt
    split_ifs
    · simp [lit_minus]
    · exact numeral_ne_nil 10 _
  noBlank := not_mem_decInt (by decide)
  noNewline := not_mem_decInt (by decide)

/-- A line of columns, the last without padding. -/
def joinColumns (cols : List (Nat × Text)) (last : Text) : Text :=
  cols.flatMap (fun c => padLeft c.1 c.2 ++ [0x20]) ++ last

theorem joinColumns_cons (width : Nat) (t : Text) (cols : List (Nat × Text)) (last : Text) :
    joinColumns ((width, t) :: cols) last = padLeft width t ++ 0x20 :: joinColumns cols last := by
  simp [joinColumns]

/-- An entry without blanks, and what follows the blank behind it. -/
theorem fields_append_sep {t : Text} (ht : 0x20 ∉ t) (rest : Text) :
    fields 0x20 (t ++ 0x20 :: rest) = [t].filter (· ≠ []) ++ fields 0x20 rest := by
  rw [fields, List.splitOn_append_cons_self, List.splitOn_eq_singleton ht, List.filter_append]
  rfl

theorem fields_replicate_append (k : Nat) (s : Text) :
    fields 0x20 (List.replicate k 0x20 ++ s) = fields 0x20 s := by
  induction k with
  | zero => rfl
  | succ k ih => rw [List.replicate_succ, List.cons_append, fields_cons_sep, ih]

/-- The entries of a line are its fields; empty entries cannot be seen. -/
theorem fields_joinColumns {cols : List (Nat × Text)} {last : Text}
    (hcols : ∀ c ∈ cols, 0x20 ∉ c.2) (hlast : 0x20 ∉ last) :
    fields 0x20 (joinColumns cols last) = (cols.map Prod.snd ++ [last]).filter (· ≠ []) := by
  induction cols with
  | nil =>
      rw [joinColumns, List.flatMap_nil, List.nil_append, fields, List.splitOn_eq_singleton hlast]
      rfl
  | cons c cols ih =>
      rw [joinColumns_cons, padLeft, List.append_assoc, fields_replicate_append,
        fields_append_sep (hcols c List.mem_cons_self),
        ih fun c' hc' => hcols c' (List.mem_cons_of_mem c hc'), ← List.filter_append]
      rfl

theorem not_mem_joinColumns {b : Byte} (hb : b ≠ 0x20) {cols : List (Nat × Text)} {last : Text}
    (hcols : ∀ c ∈ cols, b ∉ c.2) (hlast : b ∉ last) : b ∉ joinColumns cols last := by
  simp only [joinColumns, padLeft, List.mem_append, List.mem_flatMap, List.mem_replicate,
    List.mem_singleton, not_or, not_exists, not_and]
  exact ⟨fun c hc => ⟨⟨fun _ => hb, hcols c hc⟩, hb⟩, hlast⟩

end CLib
