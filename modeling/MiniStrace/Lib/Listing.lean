/-
  Lib/Listing.lean --- items between brackets, with `, ` between any two.

  WHERE A LIST STOPS.  A listing shows the first items of a list and then something that
  is not an item: a bracket, dots, or a separator that leads to neither.  As long as no
  item starts like one of these, the text says how many items it shows and what follows
  them, whatever the items hold inside.
-/
import MiniStrace.Lib.Text

set_option autoImplicit false

namespace CLib

/-- The items with `, ` before each of them, the `first` one apart. -/
def sepItems (first : Bool) : List Text → Text
  | [] => []
  | item :: items => (if first then [] else lit ", ") ++ item ++ sepItems false items

theorem sepItems_cons (first : Bool) (item : Text) (items : List Text) :
    sepItems first (item :: items) =
      (if first then [] else lit ", ") ++ item ++ sepItems false items := rfl

theorem sepItems_true (items : List Text) : sepItems true items = (lit ", ").intercalate items := by
  have hrest : ∀ (item : Text) (items : List Text),
      item ++ sepItems false items = (lit ", ").intercalate (item :: items) := by
    intro item items
    induction items generalizing item with
    | nil => simp [sepItems]
    | cons next items ih =>
        rw [sepItems_cons, List.intercalate_cons_cons, ← ih next]
        simp
  cases items with
  | nil => rfl
  | cons item items => exact hrest item items

theorem sepItems_append (first : Bool) (items others : List Text) :
    sepItems first (items ++ others) =
      sepItems first items ++ sepItems (first && items.isEmpty) others := by
  induction items generalizing first with
  | nil => simp [sepItems]
  | cons item items ih =>
      rw [List.cons_append, sepItems_cons, ih, sepItems_cons]
      simp

theorem sepItems_cons_eq_append (first : Bool) (item : Text) (items : List Text) :
    sepItems first (item :: items) = sepItems first [item] ++ sepItems false items := by
  have h := sepItems_append first [item] items
  rwa [List.isEmpty_cons, Bool.and_false] at h

theorem lit_sep : lit ", " = [0x2c, 0x20] := by with_unfolding_all decide

theorem lit_open : lit "[" = [0x5b] := by with_unfolding_all decide

theorem lit_dots : lit "..." = [0x2e, 0x2e, 0x2e] := by with_unfolding_all decide

theorem lit_more : lit ", ..." = [0x2c, 0x20, 0x2e, 0x2e, 0x2e] := by with_unfolding_all decide

theorem lit_close : lit "]" = [0x5d] := by with_unfolding_all decide

theorem length_sepItems (items : List Text) :
    (sepItems false items).length = (items.map fun item => item.length + 2).sum := by
  induction items with
  | nil => rfl
  | cons item items ih =>
      simp only [sepItems_cons, Bool.false_eq_true, if_false, List.length_append, lit_sep, ih,
        List.map_cons, List.sum_cons, List.length_cons, List.length_nil]
      omega

/-- The first item has no separator. -/
theorem length_sepItems_true {items : List Text} (h : items ≠ []) :
    (sepItems true items).length + 2 = (items.map fun item => item.length + 2).sum := by
  obtain ⟨item, items, rfl⟩ := List.exists_cons_of_ne_nil h
  simp only [sepItems_cons, if_true, List.nil_append, List.length_append, length_sepItems,
    List.map_cons, List.sum_cons]
  omega

/-! ## What is not an item -/

/-- The item starts neither like a separator nor like what stands behind the last item. -/
def Opens (item : Text) : Prop :=
  ∃ c rest, item = c :: rest ∧ c ≠ 0x2c ∧ c ≠ 0x2e ∧ c ≠ 0x5d

/-- No item starts here. -/
def Foreign (first : Bool) (t : Text) : Prop :=
  ∀ item rest, Opens item → t ≠ (if first then [] else lit ", ") ++ item ++ rest

theorem foreign_nil (first : Bool) : Foreign first [] := by
  rintro item rest ⟨c, cs, rfl, -⟩ h
  cases first <;> simp at h

/-- A bracket is not the start of an item. -/
theorem foreign_bracket (first : Bool) : Foreign first (lit "]") := by
  rintro item rest ⟨c, cs, rfl, -, -, hc⟩ h
  cases first with
  | true =>
      rw [lit_close] at h
      exact hc (List.cons.inj h).1.symm
  | false => simp [lit_close, lit_sep] at h

/-- Neither is a separator that does not lead to one. -/
theorem foreign_sep (first : Bool) {t : Text} (h : Foreign true t) :
    Foreign first (lit ", " ++ t) := by
  rintro item rest hopens heq
  cases first with
  | true =>
      obtain ⟨c, cs, rfl, hc, -⟩ := hopens
      rw [lit_sep] at heq
      exact hc (List.cons.inj (by simpa using heq)).1.symm
  | false =>
      refine h item rest hopens ?_
      simpa using heq

theorem foreign_dots (t : Text) : Foreign true (lit "..." ++ t) := by
  rintro item rest ⟨c, cs, rfl, -, hc, -⟩ h
  rw [lit_dots] at h
  exact hc (List.cons.inj (by simpa using h)).1.symm

theorem foreign_more (first : Bool) (t : Text) : Foreign first (lit ", ..." ++ t) := by
  have hsplit : lit ", ..." = lit ", " ++ lit "..." := by
    rw [lit_more, lit_sep, lit_dots]
    rfl
  rw [hsplit, List.append_assoc]
  exact foreign_sep first (foreign_dots t)

/-- Two texts that show the first items of one list, and then no further item, show the
same number of them. -/
theorem sepItems_take_inj {items : List Text} (hopens : ∀ item ∈ items, Opens item) {first : Bool}
    {j k : Nat} (hj : j ≤ items.length) (hk : k ≤ items.length) {t u : Text}
    (ht : Foreign (first && decide (j = 0)) t) (hu : Foreign (first && decide (k = 0)) u)
    (h : sepItems first (items.take j) ++ t = sepItems first (items.take k) ++ u) :
    j = k ∧ t = u := by
  induction items generalizing first j k with
  | nil =>
      rw [List.length_nil, Nat.le_zero] at hj hk
      subst hj hk
      exact ⟨rfl, by simpa [sepItems] using h⟩
  | cons item items ih =>
      have hitem := hopens item List.mem_cons_self
      cases j with
      | zero =>
          cases k with
          | zero => exact ⟨rfl, by simpa [sepItems] using h⟩
          | succ k =>
              rw [List.take_zero, List.take_succ_cons, sepItems_cons, List.append_assoc] at h
              simp only [decide_true, Bool.and_true] at ht
              exact absurd h (ht item _ hitem)
      | succ j =>
          cases k with
          | zero =>
              rw [List.take_zero, List.take_succ_cons, sepItems_cons, List.append_assoc] at h
              simp only [decide_true, Bool.and_true] at hu
              exact absurd h.symm (hu item _ hitem)
          | succ k =>
              simp only [List.take_succ_cons, sepItems_cons, List.append_assoc,
                List.append_cancel_left_eq] at h
              obtain ⟨rfl, htu⟩ := ih (fun item' h' => hopens item' (List.mem_cons_of_mem _ h'))
                (by simpa using hj) (by simpa using hk) (by simpa using ht) (by simpa using hu) h
              exact ⟨rfl, htu⟩

end CLib
