/-
  Lib/Lines.lean --- a text as a list of lines, and what stands behind the last separator.

  THE LINES.  `linesOf` gives the lines that are complete; what follows the last newline is
  not one.  Texts put together from lines without a newline in them are taken apart again.
-/
import MiniStrace.Lib.Strtol

set_option autoImplicit false

namespace CLib

/-- The complete lines of a text, without their newlines. -/
def linesOf (t : Text) : List Text := (t.splitOn 0x0a).dropLast

/-- Lines, each with its newline. -/
def unlines (ls : List Text) : Text := ls.flatMap (· ++ [0x0a])

theorem unlines_concat (ls : List Text) (l : Text) :
    unlines (ls ++ [l]) = unlines ls ++ (l ++ [0x0a]) := by
  rw [unlines, unlines, List.flatMap_append, List.flatMap_singleton]

/-- The lines are found again, whatever is begun behind them. -/
theorem linesOf_unlines {ls : List Text} (h : ∀ l ∈ ls, 0x0a ∉ l) {rest : Text}
    (hrest : 0x0a ∉ rest) : linesOf (unlines ls ++ rest) = ls := by
  have hsplit : (unlines ls ++ rest).splitOn 0x0a = ls ++ [rest] := by
    induction ls with
    | nil => exact List.splitOn_eq_singleton hrest
    | cons l ls ih =>
        have hl : ∀ b ∈ l, (b == (0x0a : Byte)) = false := by
          intro b hb
          rw [beq_eq_false_iff_ne]
          rintro rfl
          exact h l List.mem_cons_self hb
        have happend : unlines (l :: ls) ++ rest = l ++ 0x0a :: (unlines ls ++ rest) := by
          simp [unlines]
        have htail := ih fun l' hl' => h l' (List.mem_cons_of_mem l hl')
        rw [List.splitOn_eq_splitOnP] at htail ⊢
        rw [happend, List.splitOnP_append_cons_of_forall_mem hl _ (beq_self_eq_true _), htail,
          List.cons_append]
  rw [linesOf, hsplit, List.dropLast_concat]

/-- What stands behind the last separator. -/
def afterLast (sep : Byte) (t : Text) : Text := (t.reverse.takeWhile (· ≠ sep)).reverse

theorem afterLast_append {sep : Byte} (s : Text) {t : Text} (h : sep ∉ t) :
    afterLast sep (s ++ sep :: t) = t := by
  have hall : ∀ b ∈ t.reverse, decide (b ≠ sep) = true := by
    intro b hb
    rw [decide_eq_true_eq]
    rintro rfl
    exact h (List.mem_reverse.mp hb)
  rw [afterLast, List.reverse_append, List.reverse_cons, List.append_assoc,
    List.takeWhile_append_of_pos hall]
  simp

/-- The bytes of a literal are those of its characters. -/
theorem lit_eq_flatMap (s : String) : lit s = s.toList.flatMap String.utf8EncodeChar := by
  have hbytes : s.toByteArray = (s.toList.flatMap String.utf8EncodeChar).toByteArray := by
    rw [← List.utf8Encode, ← String.toByteArray_ofList, String.ofList_toList]
  unfold lit
  rw [String.toUTF8_eq_toByteArray, hbytes, List.data_toByteArray]

/-! ## Numbers at the start of a text -/

theorem isdigit_of_mem_dec {n : Nat} {c : Byte} (h : c ∈ dec n) : isdigit c = true := by
  obtain ⟨hlo, hhi⟩ := mem_dec h
  rw [isdigit, Bool.and_eq_true, decide_eq_true_eq, decide_eq_true_eq]
  exact ⟨hlo, hhi⟩

/-- `strtol` reads what `%d` has printed behind a blank, up to the end of the number. -/
theorem strtol_decInt {v : Int} (hmin : longMin ≤ v) (hmax : v ≤ longMax) {rest : Text}
    (hrest : ∀ c ∈ rest.head?, isdigit c = false) :
    strtol (0x20 :: (decInt v ++ rest)) = (v, rest) := by
  have hsat : saturate v = v := by
    unfold saturate
    omega
  obtain ⟨sign, factor, hsign, hdec, hval⟩ : ∃ sign factor, (sign, factor) ∈ signs ∧
      decInt v = sign ++ dec v.natAbs ∧ v = factor * (v.natAbs : Int) := by
    unfold decInt
    split_ifs with hneg
    · exact ⟨lit "-", -1, by simp [lit_minus, signs], rfl, by omega⟩
    · exact ⟨[], 1, by simp [signs], rfl, by omega⟩
  have hnum : readNumeral 10 (dec v.natAbs) = v.natAbs := ofDigits_numeral (by decide) (by decide)
  have hdigits : ∀ c ∈ dec v.natAbs, isdigit c = true := fun c => isdigit_of_mem_dec
  have htake : (dec v.natAbs ++ rest).takeWhile isdigit = dec v.natAbs := by
    rw [List.takeWhile_append_of_pos hdigits]
    cases rest with
    | nil => rw [List.takeWhile_nil, List.append_nil]
    | cons c rest => rw [List.takeWhile_cons_of_neg (by simp [hrest c rfl]), List.append_nil]
  have hdrop : (dec v.natAbs ++ rest).dropWhile isdigit = rest := by
    rw [dropWhile_append_of_all hdigits]
    cases rest with
    | nil => rfl
    | cons c rest => rw [List.dropWhile_cons_of_neg (by simp [hrest c rfl])]
  obtain ⟨d, ds, hd⟩ := List.exists_cons_of_ne_nil (numeral_ne_nil 10 v.natAbs)
  have hfirst : isdigit d = true := hdigits d (by rw [dec, hd]; exact List.mem_cons_self)
  have hshape : dec v.natAbs ++ rest = d :: (ds ++ rest) := by rw [dec, hd, List.cons_append]
  have hblank : (0x20 :: (decInt v ++ rest)).dropWhile isspace = sign ++ (dec v.natAbs ++ rest) := by
    rw [List.dropWhile_cons_of_pos (by decide), hdec, List.append_assoc, hshape,
      dropWhile_isspace_sign hsign hfirst]
  have hsplit : splitSign (sign ++ (dec v.natAbs ++ rest)) = (factor, dec v.natAbs ++ rest) := by
    rw [hshape, splitSign_append hsign hfirst]
  rw [strtol, hblank, hsplit]
  dsimp only
  rw [htake, hdrop, if_neg (show dec v.natAbs ≠ [] from numeral_ne_nil 10 _), hnum, ← hval, hsat]

end CLib
