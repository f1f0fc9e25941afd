/-
  Lib/Strtol.lean --- `strtol` in base ten.

  NUMERALS.  `Denotes s v` says that the whole of `s` is a numeral of the integer `v`:
  blanks, a sign or none, digits.  It does not mention a machine word.

  THE FUNCTION.  `strtol` reads the longest numeral at the start of its argument, clamps its
  value to a `long` and returns what it did not read.  It reads a numeral whole, and where it
  leaves nothing unread the argument was one, unless there was nothing to read.
-/
import MiniStrace.Lib.Parts

set_option autoImplicit false

namespace CLib

def isspace (c : Byte) : Bool := c == 0x20 || (0x09 ≤ c && c ≤ 0x0d)

def isdigit (c : Byte) : Bool := 0x30 ≤ c && c ≤ 0x39

/-- `LONG_MIN`. -/
def longMin : Int := -2 ^ 63

/-- `LONG_MAX`. -/
def longMax : Int := 2 ^ 63 - 1

/-- The `long` nearest to `v`. -/
def saturate (v : Int) : Int := max longMin (min v longMax)

/-- What a numeral may start with, and the factor it stands for. -/
def signs : List (Text × Int) := [([], 1), ([0x2b], 1), ([0x2d], -1)]

/-- `s` is a numeral of `v`. -/
def Denotes (s : Text) (v : Int) : Prop :=
  ∃ blanks sign digits : Text, ∃ factor : Int, s = blanks ++ (sign ++ digits) ∧
    (∀ c ∈ blanks, isspace c = true) ∧ (sign, factor) ∈ signs ∧
    digits ≠ [] ∧ (∀ c ∈ digits, isdigit c = true) ∧ v = factor * readNumeral 10 digits

/-- The sign at the start of a text, and what comes behind it. -/
def splitSign : Text → Int × Text
  | [] => (1, [])
  | c :: cs => if c = 0x2d then (-1, cs) else if c = 0x2b then (1, cs) else (1, c :: cs)

/-- `strtol(s, &endptr, 10)`: the value, and the string at `endptr`. -/
def strtol (s : Text) : Int × Text :=
  let t := splitSign (s.dropWhile isspace)
  let digits := t.2.takeWhile isdigit
  if digits = [] then (0, s)
  else (saturate (t.1 * readNumeral 10 digits), t.2.dropWhile isdigit)

/-! ## Signs -/

theorem isdigit_not {c : Byte} (h : isdigit c = true) :
    isspace c = false ∧ c ≠ 0x2d ∧ c ≠ 0x2b := by
  simp only [isdigit, Bool.and_eq_true, decide_eq_true_eq, UInt8.le_iff_toNat_le] at h
  have hne : ∀ b : Byte, b.toNat < 48 → c ≠ b := by
    rintro b hb rfl
    have h48 : (0x30 : Byte).toNat = 48 := rfl
    omega
  refine ⟨?_, hne 0x2d (by decide), hne 0x2b (by decide)⟩
  have h30 : (0x30 : Byte).toNat = 48 := rfl
  have h0d : (0x0d : Byte).toNat = 13 := rfl
  simp only [isspace, Bool.or_eq_false_iff, beq_eq_false_iff_ne, Bool.and_eq_false_imp,
    decide_eq_true_eq, decide_eq_false_iff_not, UInt8.le_iff_toNat_le]
  exact ⟨hne 0x20 (by decide), fun _ => by omega⟩

theorem splitSign_append {sign : Text} {factor : Int} (h : (sign, factor) ∈ signs) {d : Byte}
    (hd : isdigit d = true) (ds : Text) :
    splitSign (sign ++ d :: ds) = (factor, d :: ds) := by
  obtain ⟨-, hminus, hplus⟩ := isdigit_not hd
  simp only [signs, List.mem_cons, Prod.mk.injEq, List.not_mem_nil, or_false] at h
  rcases h with ⟨rfl, rfl⟩ | ⟨rfl, rfl⟩ | ⟨rfl, rfl⟩
  · rw [List.nil_append, splitSign, if_neg hminus, if_neg hplus]
  · rfl
  · rfl

theorem splitSign_spec (t : Text) :
    ∃ sign, (sign, (splitSign t).1) ∈ signs ∧ t = sign ++ (splitSign t).2 := by
  cases t with
  | nil => exact ⟨[], by simp [splitSign, signs], rfl⟩
  | cons c cs =>
      rw [splitSign]
      split
      · rename_i hc
        exact ⟨[0x2d], by simp [signs], by rw [hc]; rfl⟩
      · split
        · rename_i hc
          exact ⟨[0x2b], by simp [signs], by rw [hc]; rfl⟩
        · exact ⟨[], by simp [signs], rfl⟩

/-- A signed numeral does not start with a blank. -/
theorem dropWhile_isspace_sign {sign : Text} {factor : Int} (h : (sign, factor) ∈ signs) {d : Byte}
    (hd : isdigit d = true) (ds : Text) :
    (sign ++ d :: ds).dropWhile isspace = sign ++ d :: ds := by
  simp only [signs, List.mem_cons, Prod.mk.injEq, List.not_mem_nil, or_false] at h
  rcases h with ⟨rfl, -⟩ | ⟨rfl, -⟩ | ⟨rfl, -⟩
  · exact List.dropWhile_cons_of_neg (by simp [(isdigit_not hd).1])
  · rfl
  · rfl

/-! ## Whole numerals -/

theorem dropWhile_append_of_all {p : Byte → Bool} {s : Text} (h : ∀ c ∈ s, p c = true) (t : Text) :
    (s ++ t).dropWhile p = t.dropWhile p := by
  rw [List.dropWhile_append, List.dropWhile_eq_nil_iff.mpr h]
  rfl

theorem strtol_of_denotes {s : Text} {v : Int} (h : Denotes s v) : strtol s = (saturate v, []) := by
  obtain ⟨blanks, sign, digits, factor, rfl, hblanks, hsign, hne, hdigits, rfl⟩ := h
  obtain ⟨d, ds, rfl⟩ := List.exists_cons_of_ne_nil hne
  have hd := hdigits d List.mem_cons_self
  have htake : (d :: ds).takeWhile isdigit = d :: ds := List.takeWhile_eq_self_iff.mpr hdigits
  have hdrop : (d :: ds).dropWhile isdigit = [] := List.dropWhile_eq_nil_iff.mpr hdigits
  rw [strtol, dropWhile_append_of_all hblanks, dropWhile_isspace_sign hsign hd,
    splitSign_append hsign hd]
  dsimp only
  rw [htake, hdrop, if_neg (List.cons_ne_nil d ds)]

theorem denotes_of_strtol {s : Text} (hrest : (strtol s).2 = []) (hne : (strtol s).1 ≠ 0) :
    ∃ v, Denotes s v := by
  obtain ⟨sign, hsign, ht⟩ := splitSign_spec (s.dropWhile isspace)
  unfold strtol at hrest hne
  dsimp only at hrest hne
  split at hrest
  · -- nothing was read, so the value is zero
    rename_i hnil
    rw [if_pos hnil] at hne
    exact absurd rfl hne
  · rename_i hdigits
    set t := splitSign (s.dropWhile isspace)
    have hall := List.dropWhile_eq_nil_iff.mp hrest
    have htake : t.2.takeWhile isdigit = t.2 := List.takeWhile_eq_self_iff.mpr hall
    rw [htake] at hdigits
    refine ⟨t.1 * readNumeral 10 t.2, s.takeWhile isspace, sign, t.2, t.1, ?_, ?_, hsign, hdigits,
      hall, rfl⟩
    · rw [← ht, List.takeWhile_append_dropWhile]
    · exact fun c hc => List.mem_takeWhile_imp hc

end CLib
