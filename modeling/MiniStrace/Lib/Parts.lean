/-
  Lib/Parts.lean --- texts made of parts between bars, and words made of disjoint
  bit sets.

  PRINTING AND READING.  A text `a|b|c` is the list of its parts, provided no part holds
  a bar.  A reader that knows the value of every part reads the text as the OR of these
  values; `ReadsAs` adds that no two of them share a bit, so that the OR is also their
  sum.  What a text reads as is unique.

  WORDS.  `orAll` is the OR of a list of words.  Everything here is over words of any
  width.

  TOKENS.  `strtok`, called until it fails, yields the fields between separators that are
  not empty.
-/
import MiniStrace.Lib.Text

set_option autoImplicit false

namespace CLib

/-! ## Words -/

section Words

variable {w : Nat}

/-- The bits of all words of the list. -/
def orAll (vs : List (BitVec w)) : BitVec w := vs.foldr (· ||| ·) 0

@[simp] theorem orAll_nil : orAll ([] : List (BitVec w)) = 0 := rfl

@[simp] theorem orAll_cons (v : BitVec w) (vs : List (BitVec w)) :
    orAll (v :: vs) = v ||| orAll vs := rfl

theorem orAll_append (vs ws : List (BitVec w)) : orAll (vs ++ ws) = orAll vs ||| orAll ws := by
  induction vs with
  | nil => simp
  | cons v vs ih => rw [List.cons_append, orAll_cons, orAll_cons, ih, BitVec.or_assoc]

/-- No two words of the list share a bit. -/
def Apart (vs : List (BitVec w)) : Prop := vs.Pairwise fun a b => a &&& b = 0

theorem and_orAll {v : BitVec w} {vs : List (BitVec w)} (h : ∀ u ∈ vs, v &&& u = 0) :
    v &&& orAll vs = 0 := by
  induction vs with
  | nil => simp
  | cons u us ih =>
      rw [orAll_cons, BitVec.and_or_distrib_left, h u List.mem_cons_self,
        ih fun u' hu => h u' (List.mem_cons_of_mem u hu)]
      simp

theorem orAll_and_of_mem {v : BitVec w} {vs : List (BitVec w)} (h : v ∈ vs) : orAll vs &&& v = v := by
  obtain ⟨us, us', rfl⟩ := List.append_of_mem h
  rw [orAll_append, orAll_cons]
  ext i hi
  simp only [BitVec.getElem_and, BitVec.getElem_or]
  cases v[i] <;> simp

/-- The OR of words that share no bit is their sum. -/
theorem Apart.toNat_orAll {vs : List (BitVec w)} (h : Apart vs) :
    (orAll vs).toNat = (vs.map BitVec.toNat).sum := by
  induction vs with
  | nil => simp
  | cons v vs ih =>
      obtain ⟨hv, hvs⟩ := List.pairwise_cons.mp h
      have hand := and_orAll hv
      rw [orAll_cons, ← BitVec.add_eq_or_of_and_eq_zero v _ hand,
        BitVec.toNat_add_of_and_eq_zero hand, ih hvs, List.map_cons, List.sum_cons]

end Words

/-! ## Parts -/

/-- The parts with a bar between any two. -/
def joinBars (parts : List Text) : Text := [0x7c].intercalate parts

/-- What comes before a further part: a bar, unless the text is still empty. -/
theorem joinBars_concat {parts : List Text} (h : ∀ p ∈ parts, p ≠ []) (part : Text) :
    joinBars (parts ++ [part]) =
      joinBars parts ++ ((if joinBars parts = [] then [] else [0x7c]) ++ part) := by
  induction parts with
  | nil => simp [joinBars]
  | cons p ps ih =>
      have hp : p ≠ [] := h p List.mem_cons_self
      cases ps with
      | nil => simp [joinBars, hp]
      | cons q qs =>
          have hne : joinBars (q :: qs) ≠ [] := by
            have hq : q ≠ [] := h q (by simp)
            cases qs <;> simp [joinBars, hq]
          have htail := ih fun p' hp' => h p' (List.mem_cons_of_mem p hp')
          rw [if_neg hne] at htail
          have hcons : ∀ ps' : List Text, ps' ≠ [] →
              joinBars (p :: ps') = p ++ (0x7c :: joinBars ps') := by
            intro ps' hps'
            obtain ⟨q', qs', rfl⟩ := List.exists_cons_of_ne_nil hps'
            simp [joinBars, List.intercalate_cons_cons]
          rw [List.cons_append, hcons _ (by simp), htail, hcons _ (by simp)]
          simp [hp]

theorem joinBars_eq_nil {parts : List Text} (h : ∀ p ∈ parts, p ≠ []) :
    joinBars parts = [] ↔ parts = [] := by
  cases parts with
  | nil => simp [joinBars]
  | cons p ps =>
      have hp : p ≠ [] := h p List.mem_cons_self
      cases ps <;> simp [joinBars, hp]

/-- Every part but the first has its separator before it. -/
theorem intercalate_byte_cons (sep : Byte) (part : Text) (parts : List Text) :
    [sep].intercalate (part :: parts) = part ++ parts.flatMap fun p => sep :: p := by
  induction parts generalizing part with
  | nil => simp
  | cons p ps ih =>
      rw [List.intercalate_cons_cons, ih p, List.flatMap_cons]
      simp

theorem joinBars_cons (part : Text) (parts : List Text) :
    joinBars (part :: parts) = part ++ parts.flatMap fun p => 0x7c :: p :=
  intercalate_byte_cons 0x7c part parts

theorem length_joinBars {parts : List Text} (hne : parts ≠ []) :
    (joinBars parts).length + 1 = (parts.map fun p => p.length + 1).sum := by
  obtain ⟨part, parts, rfl⟩ := List.exists_cons_of_ne_nil hne
  have hflat : ∀ ps : List Text,
      (ps.flatMap fun p => 0x7c :: p).length = (ps.map fun p => p.length + 1).sum := fun ps => by
    simp [List.length_flatMap]
  rw [joinBars_cons, List.length_append, hflat, List.map_cons, List.sum_cons]
  omega

/-- Splitting at the bars gives the parts back. -/
theorem splitOn_joinBars {parts : List Text} (hne : parts ≠ []) (h : ∀ p ∈ parts, 0x7c ∉ p) :
    (joinBars parts).splitOn 0x7c = parts :=
  List.splitOn_intercalate 0x7c h hne

/-! ## Reading -/

/-- The number a numeral stands for. -/
def readNumeral (base : Nat) (t : Text) : Nat := Nat.ofDigits base (t.reverse.map digitVal)

/-- The value of a `0x` numeral. -/
def readHex (t : Text) : Option Nat :=
  if (lit "0x").isPrefixOf t then some (readNumeral 16 (t.drop 2)) else none

theorem readHex_hex0x (n : Nat) : readHex (hex0x n) = some n := by
  rw [readHex, hex0x, lit_hexLead, if_pos (by simp)]
  exact congrArg some (ofDigits_numeral (by decide) (by decide))

section Reading

variable {w : Nat} (value : Text → Option (BitVec w))

/-- The values of the parts of a text. -/
def PartValues (t : Text) (vs : List (BitVec w)) : Prop :=
  (t.splitOn 0x7c).map value = vs.map some

instance (t : Text) (vs : List (BitVec w)) : Decidable (PartValues value t vs) :=
  inferInstanceAs (Decidable (_ = _))

/-- Every part of the text has a value, no two of them share a bit, and together they
are `v`. -/
def ReadsAs (t : Text) (v : BitVec w) : Prop :=
  ∃ vs, PartValues value t vs ∧ orAll vs = v ∧ Apart vs

variable {value}

theorem PartValues.unique {t : Text} {vs us : List (BitVec w)} (h : PartValues value t vs)
    (h' : PartValues value t us) : vs = us :=
  List.map_injective_iff.mpr (Option.some_injective _) (h.symm.trans h')

/-- A text reads as one value at most. -/
theorem ReadsAs.unique {t : Text} {v u : BitVec w} (h : ReadsAs value t v)
    (h' : ReadsAs value t u) : v = u := by
  obtain ⟨vs, hvs, rfl, -⟩ := h
  obtain ⟨us, hus, rfl, -⟩ := h'
  rw [hvs.unique hus]

theorem partValues_joinBars {parts : List Text} (hne : parts ≠ []) (h : ∀ p ∈ parts, 0x7c ∉ p)
    {vs : List (BitVec w)} (hvs : parts.map value = vs.map some) :
    PartValues value (joinBars parts) vs := by
  rw [PartValues, splitOn_joinBars hne h, hvs]

end Reading

/-! ## Tokens -/

section Tokens

variable (sep : Byte)

/-- `strtok` with one separator: the next token and what comes behind its separator. -/
def strtok (s : Text) : Option (Text × Text) :=
  let s := s.dropWhile (· == sep)
  if s = [] then none
  else some (s.takeWhile (· != sep), (s.dropWhile (· != sep)).drop 1)

/-- The fields between separators that are not empty. -/
def fields (s : Text) : List Text := (s.splitOn sep).filter (· ≠ [])

variable {sep}

theorem fields_cons_sep (s : Text) : fields sep (sep :: s) = fields sep s := by
  have h := List.splitOn_append_cons_self [] s (a := sep)
  rw [List.nil_append, List.splitOn_nil] at h
  rw [fields, h, List.filter_append]
  rfl

theorem fields_dropWhile (s : Text) : fields sep (s.dropWhile (· == sep)) = fields sep s := by
  induction s with
  | nil => rfl
  | cons c cs ih =>
      by_cases hc : c = sep
      · rw [List.dropWhile_cons_of_pos (by simpa using hc), ih, hc, fields_cons_sep]
      · rw [List.dropWhile_cons_of_neg (by simpa using hc)]

/-- Calling `strtok` until it fails yields the fields. -/
theorem fields_eq_strtok (s : Text) :
    fields sep s = match strtok sep s with
      | none => []
      | some (tok, rest) => tok :: fields sep rest := by
  rw [← fields_dropWhile, strtok]
  cases hs : s.dropWhile (· == sep) with
  | nil => rfl
  | cons c cs =>
      have hc : c ≠ sep := by
        have := List.head_dropWhile_not (· == sep) (l := s) (by rw [hs]; simp)
        simpa [hs] using this
      rw [if_neg (by simp)]
      dsimp only
      have htok : (c :: cs).takeWhile (· != sep) ≠ [] := by
        rw [List.takeWhile_cons_of_pos (by simpa using hc)]
        simp
      have hnot : sep ∉ (c :: cs).takeWhile (· != sep) := by
        intro hmem
        have := List.mem_takeWhile_imp hmem
        simp at this
      conv_lhs => rw [← List.takeWhile_append_dropWhile (p := (· != sep)) (l := c :: cs)]
      generalize (c :: cs).takeWhile (· != sep) = tok at htok hnot
      cases hrest : (c :: cs).dropWhile (· != sep) with
      | nil =>
          rw [List.append_nil, fields, List.splitOn_eq_singleton hnot]
          simp [htok, fields]
      | cons d ds =>
          have hd : d = sep := by
            have := List.head_dropWhile_not (· != sep) (l := c :: cs) (by rw [hrest]; simp)
            simpa [hrest] using this
          rw [hd, fields, List.splitOn_append_cons_self, List.splitOn_eq_singleton hnot,
            List.drop_one, List.tail_cons]
          simp [htok, fields]

end Tokens

end CLib
