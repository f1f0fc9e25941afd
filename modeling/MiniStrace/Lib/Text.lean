/-
  Lib/Text.lean --- bytes, C string literals and the integer conversions of
  `printf`.

  Nothing here knows about the tracer.  A C `char` array is a list of bytes, a
  string literal is the list of its bytes, and the conversions `%x`, `%o`, `%u`
  and `%d` are built on Mathlib's `Nat.digits`, so that their shape (which bytes
  can occur) and their inverse come from the digit lemmas that already exist.

  THE TWO FACTS USERS NEED.  `Clean` says that a text carries no control byte;
  it is closed under everything the formatters do, and every numeral is clean.
  `append_sep_inj` splits an equation between two texts at the first separator,
  which is how a text is shown to determine the numbers printed in it.
-/
import Mathlib

set_option autoImplicit false

namespace CLib

/-- A C `unsigned char`. -/
abbrev Byte : Type := UInt8

/-- The bytes of a C string, without the terminating NUL. -/
abbrev Text : Type := List Byte

/-- The bytes of a string literal. -/
@[irreducible] def lit (s : String) : Text := s.toUTF8.data.toList

theorem lit_injective : Function.Injective lit := by
  intro s t h
  unfold lit at h
  exact String.toByteArray_inj.mp (ByteArray.ext (Array.toList_inj.mp h))

theorem lit_minus : lit "-" = [0x2d] := by with_unfolding_all decide

theorem lit_hexLead : lit "0x" = [0x30, 0x78] := by with_unfolding_all decide

theorem lit_quote : lit "\"" = [0x22] := by with_unfolding_all decide

/-! ## Integer conversions -/

/-- The byte of one digit, lower case above nine. -/
def digitByte (d : Nat) : Byte :=
  if d < 10 then UInt8.ofNat (0x30 + d) else UInt8.ofNat (0x57 + d)

/-- An unsigned conversion in the given base: no leading zeros, `0` for zero. -/
def numeral (base n : Nat) : Text :=
  if n = 0 then [digitByte 0] else (Nat.digits base n).reverse.map digitByte

/-- `%x`. -/
def hex (n : Nat) : Text := numeral 16 n

/-- `%o`. -/
def oct (n : Nat) : Text := numeral 8 n

/-- `%u`. -/
def dec (n : Nat) : Text := numeral 10 n

/-- `%d`. -/
def decInt (z : Int) : Text :=
  if z < 0 then lit "-" ++ dec z.natAbs else dec z.natAbs

/-- `%02x` of one byte. -/
def hex02 (b : Byte) : Text := [digitByte (b.toNat / 16), digitByte (b.toNat % 16)]

/-- `0x%x`, the form every raw value is printed in. -/
def hex0x (n : Nat) : Text := lit "0x" ++ hex n

/-! ## C strings -/

/-- What `%s` prints of an array: the bytes before the first NUL. -/
def cstr (t : Text) : Text := t.takeWhile (· ≠ 0)

/-- What `%.*s` prints of an array: at most `n` bytes, none past a NUL. -/
def cstrPrec (n : Nat) (t : Text) : Text := cstr (t.take n)

theorem length_cstr_le (t : Text) : (cstr t).length ≤ t.length :=
  (List.takeWhile_sublist _).length_le

theorem cstr_ne_zero {t : Text} {b : Byte} (h : b ∈ cstr t) : b ≠ 0 := by
  have hb := List.mem_takeWhile_imp h
  simpa using hb

theorem cstr_of_forall_ne_zero {t : Text} (h : ∀ b ∈ t, b ≠ 0) : cstr t = t := by
  refine List.takeWhile_eq_self_iff.mpr ?_
  intro b hb
  simpa using h b hb

/-- What follows a NUL does not matter. -/
theorem cstr_append_zero (t rest : Text) : cstr (t ++ 0 :: rest) = cstr t := by
  unfold cstr
  induction t with
  | nil => rfl
  | cons c cs ih => rw [List.cons_append, List.takeWhile_cons, List.takeWhile_cons, ih]

/-! ## Digits -/

/-- The value a digit byte stands for. -/
def digitVal (b : Byte) : Nat :=
  if b.toNat < 0x40 then b.toNat - 0x30 else b.toNat - 0x57

theorem digitByte_toNat {d : Nat} (h : d < 16) :
    (digitByte d).toNat = if d < 10 then 0x30 + d else 0x57 + d := by
  unfold digitByte
  split
  · simp only [UInt8.toNat_ofNat']
    omega
  · simp only [UInt8.toNat_ofNat']
    omega

theorem digitVal_digitByte {d : Nat} (h : d < 16) : digitVal (digitByte d) = d := by
  unfold digitVal
  rw [digitByte_toNat h]
  split <;> split at * <;> omega

theorem numeral_ne_nil (base n : Nat) : numeral base n ≠ [] := by
  unfold numeral
  split
  · simp
  · rename_i hn
    simp [Nat.digits_ne_nil_iff_ne_zero, hn]

/-- Every byte of a numeral is one of its digits. -/
theorem mem_numeral {base n : Nat} (hb : 1 < base) {b : Byte} (h : b ∈ numeral base n) :
    ∃ d, d < base ∧ b = digitByte d := by
  unfold numeral at h
  split at h
  · exact ⟨0, by omega, by simpa using h⟩
  · obtain ⟨d, hd, rfl⟩ := List.mem_map.mp h
    exact ⟨d, Nat.digits_lt_base hb (List.mem_reverse.mp hd), rfl⟩

/-- The width of a numeral. -/
theorem length_numeral {base : Nat} (hb : 1 < base) (n : Nat) :
    (numeral base n).length = Nat.log base n + 1 := by
  unfold numeral
  split
  · rename_i hn
    simp [hn]
  · rename_i hn
    rw [List.length_map, List.length_reverse, Nat.length_digits base n hb hn]

/-- Reading the digits back gives the number. -/
theorem ofDigits_numeral {base n : Nat} (hb : 1 < base) (hb16 : base ≤ 16) :
    Nat.ofDigits base ((numeral base n).reverse.map digitVal) = n := by
  unfold numeral
  split
  · rename_i hn
    simp [hn, digitVal_digitByte]
  · have hmap : ((Nat.digits base n).reverse.map digitByte).reverse.map digitVal
        = Nat.digits base n := by
      rw [← List.map_reverse, List.reverse_reverse, List.map_map]
      refine (List.map_congr_left ?_).trans (List.map_id _)
      intro d hd
      have hlt : d < base := Nat.digits_lt_base hb hd
      simpa using digitVal_digitByte (by omega)
    rw [hmap, Nat.ofDigits_digits]

theorem numeral_injective {base : Nat} (hb : 1 < base) (hb16 : base ≤ 16) :
    Function.Injective (numeral base) := by
  intro m n h
  rw [← ofDigits_numeral (n := m) hb hb16, h, ofDigits_numeral hb hb16]

/-! ## Clean text -/

/-- A control byte: below the space, or DEL. -/
def IsControl (b : Byte) : Prop := b < 0x20 ∨ b = 0x7f

instance (b : Byte) : Decidable (IsControl b) :=
  inferInstanceAs (Decidable (_ ∨ _))

/-- No control byte occurs in the text. -/
def Clean (t : Text) : Prop := ∀ b ∈ t, ¬ IsControl b

/-- The scan that decides `Clean`; stated over `Nat` so that it evaluates fast. -/
def isClean (t : Text) : Bool := t.all fun b => 0x20 ≤ b.toNat && b.toNat != 0x7f

theorem isClean_iff {t : Text} : isClean t = true ↔ Clean t := by
  simp only [isClean, Clean, IsControl, List.all_eq_true, Bool.and_eq_true,
    decide_eq_true_eq, bne_iff_ne, ne_eq, not_or, UInt8.lt_iff_toNat_lt]
  refine forall₂_congr fun b _ => and_congr ⟨?_, ?_⟩ (not_congr ⟨?_, ?_⟩)
  · intro h hlt
    exact absurd hlt (by simpa using h)
  · intro h
    simpa using h
  · intro h
    exact UInt8.toNat_inj.mp h
  · rintro rfl
    rfl

instance (t : Text) : Decidable (Clean t) := decidable_of_iff _ isClean_iff

@[simp] theorem clean_nil : Clean [] := by simp [Clean]

@[simp] theorem clean_append {s t : Text} : Clean (s ++ t) ↔ Clean s ∧ Clean t := by
  simp only [Clean, List.mem_append]
  constructor
  · intro h
    exact ⟨fun b hb => h b (Or.inl hb), fun b hb => h b (Or.inr hb)⟩
  · rintro ⟨hs, ht⟩ b (hb | hb)
    · exact hs b hb
    · exact ht b hb

@[simp] theorem clean_cons {b : Byte} {t : Text} :
    Clean (b :: t) ↔ ¬ IsControl b ∧ Clean t := by
  simp [Clean]

theorem Clean.ne_zero {t : Text} (h : Clean t) {b : Byte} (hb : b ∈ t) : b ≠ 0 := by
  rintro rfl
  exact h 0 hb (by decide)

theorem Clean.take {t : Text} (h : Clean t) (n : Nat) : Clean (t.take n) :=
  fun b hb => h b (List.mem_of_mem_take hb)

theorem Clean.cstr {t : Text} (h : Clean t) : Clean (cstr t) :=
  fun b hb => h b ((List.takeWhile_sublist _).subset hb)

theorem not_isControl_digitByte {d : Nat} (h : d < 16) : ¬ IsControl (digitByte d) := by
  interval_cases d <;> decide

theorem clean_numeral {base n : Nat} (hb : 1 < base) (hb16 : base ≤ 16) :
    Clean (numeral base n) := by
  intro b h
  obtain ⟨d, hd, rfl⟩ := mem_numeral hb h
  exact not_isControl_digitByte (by omega)

@[simp] theorem clean_hex (n : Nat) : Clean (hex n) := clean_numeral (by omega) (by omega)
@[simp] theorem clean_oct (n : Nat) : Clean (oct n) := clean_numeral (by omega) (by omega)
@[simp] theorem clean_dec (n : Nat) : Clean (dec n) := clean_numeral (by omega) (by omega)

@[simp] theorem clean_hex0x (n : Nat) : Clean (hex0x n) :=
  clean_append.mpr ⟨by with_unfolding_all decide, clean_hex n⟩

@[simp] theorem clean_decInt (z : Int) : Clean (decInt z) := by
  unfold decInt
  split
  · exact clean_append.mpr ⟨by with_unfolding_all decide, clean_dec _⟩
  · exact clean_dec _

@[simp] theorem clean_hex02 (b : Byte) : Clean (hex02 b) := by
  have hb : b.toNat < 256 := b.toNat_lt
  simp only [hex02, clean_cons, clean_nil, and_true]
  exact ⟨not_isControl_digitByte (by omega), not_isControl_digitByte (by omega)⟩

/-- A text that is not empty and holds no control byte. -/
structure Plain (t : Text) : Prop where
  clean : Clean t
  ne_nil : t ≠ []

instance (t : Text) : Decidable (Plain t) :=
  decidable_of_iff (Clean t ∧ t ≠ []) ⟨fun h => ⟨h.1, h.2⟩, fun h => ⟨h.clean, h.ne_nil⟩⟩

theorem Plain.append {s t : Text} (hs : Plain s) (ht : Clean t) : Plain (s ++ t) :=
  ⟨clean_append.mpr ⟨hs.clean, ht⟩, fun h => hs.ne_nil (List.append_eq_nil_iff.mp h).1⟩

theorem plain_hex0x (n : Nat) : Plain (hex0x n) :=
  ⟨clean_hex0x n, fun h => numeral_ne_nil 16 n (List.append_eq_nil_iff.mp h).2⟩

theorem plain_dec (n : Nat) : Plain (dec n) := ⟨clean_dec n, numeral_ne_nil 10 n⟩

theorem plain_decInt (z : Int) : Plain (decInt z) := by
  refine ⟨clean_decInt z, ?_⟩
  unfold decInt
  split
  · exact fun h => numeral_ne_nil 10 _ (List.append_eq_nil_iff.mp h).2
  · exact numeral_ne_nil 10 _

/-! ## Reading numbers back -/

/-- Split an equation of texts at a separator that neither left part contains. -/
theorem append_sep_inj {sep : Byte} {s s' r r' : Text} (hs : sep ∉ s) (hs' : sep ∉ s')
    (h : s ++ sep :: r = s' ++ sep :: r') : s = s' ∧ r = r' := by
  induction s generalizing s' with
  | nil =>
    cases s' with
    | nil => exact ⟨rfl, by simpa using h⟩
    | cons b t =>
      have hb : sep = b := by
        simp only [List.nil_append, List.cons_append, List.cons.injEq] at h
        exact h.1
      exact absurd (hb ▸ List.mem_cons_self) hs'
  | cons a s ih =>
    cases s' with
    | nil =>
      have ha : a = sep := by
        simp only [List.nil_append, List.cons_append, List.cons.injEq] at h
        exact h.1
      exact absurd (ha ▸ List.mem_cons_self) hs
    | cons b t =>
      simp only [List.cons_append, List.cons.injEq] at h
      obtain ⟨hab, hrest⟩ := h
      obtain ⟨hst, hr⟩ := ih (fun hm => hs (List.mem_cons_of_mem _ hm))
        (fun hm => hs' (List.mem_cons_of_mem _ hm)) hrest
      exact ⟨by rw [hab, hst], hr⟩

/-- Texts with different heads, none the beginning of the other, differ. -/
theorem append_ne_append {s s' : Text} (h : ¬s <+: s') (h' : ¬s' <+: s) (r r' : Text) :
    s ++ r ≠ s' ++ r' := by
  intro heq
  rcases List.append_eq_append_iff.mp heq with ⟨t, ht, -⟩ | ⟨t, ht, -⟩
  · exact h ⟨t, ht.symm⟩
  · exact h' ⟨t, ht.symm⟩

/-- A number is read up to the byte that is no digit. -/
theorem numeral_append_inj {base a b : Nat} (hb : 1 < base) (hb16 : base ≤ 16) {c : Byte}
    (hc : ∀ d < base, digitByte d ≠ c) {r r' : Text}
    (h : numeral base a ++ c :: r = numeral base b ++ c :: r') : a = b ∧ r = r' := by
  have hno : ∀ n, c ∉ numeral base n := fun n hm => by
    obtain ⟨d, hd, heq⟩ := mem_numeral hb hm
    exact hc d hd heq.symm
  obtain ⟨hnumeral, hrest⟩ := append_sep_inj (hno a) (hno b) h
  exact ⟨numeral_injective hb hb16 hnumeral, hrest⟩

theorem dec_append_inj {a b : Nat} {c : Byte} (hc : ∀ d < 10, digitByte d ≠ c) {r r' : Text}
    (h : dec a ++ c :: r = dec b ++ c :: r') : a = b ∧ r = r' :=
  numeral_append_inj (by decide) (by decide) hc h

theorem hex_append_inj {a b : Nat} {c : Byte} (hc : ∀ d < 16, digitByte d ≠ c) {r r' : Text}
    (h : hex a ++ c :: r = hex b ++ c :: r') : a = b ∧ r = r' :=
  numeral_append_inj (by decide) (by decide) hc h

theorem dec_injective : Function.Injective dec := numeral_injective (by omega) (by omega)

/-- A byte of a decimal numeral is an ASCII digit. -/
theorem mem_dec {n : Nat} {b : Byte} (h : b ∈ dec n) : 0x30 ≤ b ∧ b ≤ 0x39 := by
  obtain ⟨d, hd, rfl⟩ := mem_numeral (by omega) h
  interval_cases d <;> decide

theorem length_numeral_le {base n k : Nat} (hb : 1 < base) (hk : 0 < k) (h : n < base ^ k) :
    (numeral base n).length ≤ k := by
  rw [length_numeral hb]
  by_cases h0 : n = 0
  · rw [h0, Nat.log_zero_right]
    exact hk
  · have := Nat.log_lt_of_lt_pow h0 h
    omega

theorem length_dec_le {n k : Nat} (hk : 0 < k) (h : n < 10 ^ k) : (dec n).length ≤ k :=
  length_numeral_le (by decide) hk h

theorem length_hex0x_le {n k : Nat} (hk : 0 < k) (h : n < 16 ^ k) : (hex0x n).length ≤ 2 + k := by
  have hlit : (lit "0x").length = 2 := by with_unfolding_all decide
  rw [hex0x, List.length_append, hlit]
  exact Nat.add_le_add_left (length_numeral_le (by decide) hk h) 2

theorem not_mem_hex0x {b : Byte} (hx : b ∉ lit "0x") (hd : ∀ d < 16, digitByte d ≠ b) (n : Nat) :
    b ∉ hex0x n := by
  intro h
  rcases List.mem_append.mp h with h | h
  · exact hx h
  · obtain ⟨d, hlt, rfl⟩ := mem_numeral (by decide) h
    exact hd d hlt rfl

theorem not_mem_decInt {z : Int} {b : Byte} (hb : b < 0x2d ∨ 0x39 < b) : b ∉ decInt z := by
  intro h
  unfold decInt at h
  split at h
  · rcases List.mem_append.mp h with h | h
    · have hminus : b = 0x2d := by
        rw [lit_minus] at h
        simpa using h
      subst hminus
      revert hb
      decide
    · have := mem_dec h
      grind
  · have := mem_dec h
    grind

theorem decInt_injective : Function.Injective decInt := by
  intro x y h
  have hne : ∀ n : Nat, ∀ t : Text, dec n ≠ 0x2d :: t := by
    intro n t hc
    have hm : (0x2d : Byte) ∈ dec n := by rw [hc]; exact List.mem_cons_self
    exact absurd (mem_dec hm).1 (by decide)
  unfold decInt at h
  rw [lit_minus] at h
  split at h <;> split at h
  · have habs := dec_injective (List.cons.inj h).2
    omega
  · exact absurd h.symm (hne _ _)
  · exact absurd h (hne _ _)
  · have habs := dec_injective h
    omega

end CLib
