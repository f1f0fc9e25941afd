/-
  SyscallNames.lean --- `scripts/gen_syscall_table.sh` and the `syscall_name` it generates.

  THE SCRIPT.  It reads the macros of the kernel's header as the preprocessor dumps them,
  follows `__NR_mmap -> __NR3264_mmap -> 222` to a number, and gives each number the first
  name that leads to it.  Its dictionaries are `Dict`, its `resolve` counts down from six
  lookups where the source counts up to a depth of five.

  THE PURPOSE.  `Chosen` says without the dictionaries which name a number should have, and
  `syscallName_generated` that the generated C function returns it.

  CHARACTERS.  `\s`, `\w` and `isdigit` are modelled on ASCII, which is what a header has.
-/
import MiniStrace.Lib.Dict
import Mathlib.Data.List.TakeWhile

set_option autoImplicit false

namespace MiniStrace

open CLib

/-! ## The script -/

/-- `\s` -/
def isSpace (c : Char) : Bool :=
  c = ' ' || (9 ≤ c.toNat && c.toNat ≤ 13) || (28 ≤ c.toNat && c.toNat ≤ 31)

/-- `\w` -/
def isWord (c : Char) : Bool := c.isAlphanum || c = '_'

/-- What follows `start` in a string that begins with it. -/
def afterStart (start s : List Char) : Option (List Char) :=
  if start <+: s then some (s.drop start.length) else none

/-- `re.match(r"#define\s+(__NR\w*)\s+(\S+)", line)` with its two groups.  No part of the
pattern can match less than it is able to, so there is nothing to backtrack. -/
def matchDefine (line : List Char) : Option (List Char × List Char) := do
  let rest ← afterStart "#define".toList line
  guard (rest.takeWhile isSpace ≠ [])
  let rest ← afterStart "__NR".toList (rest.dropWhile isSpace)
  let word := rest.takeWhile isWord
  let rest := rest.dropWhile isWord
  guard (rest.takeWhile isSpace ≠ [])
  let value := (rest.dropWhile isSpace).takeWhile fun c => !isSpace c
  guard (value ≠ [])
  some ("__NR".toList ++ word, value)

/-- `raw`, from the name of each macro to its right-hand side. -/
def rawMacros (lines : List (List Char)) : Dict (List Char) (List Char) :=
  .assignAll matchDefine lines

/-- `val.isdigit()` -/
def isDigits (value : List Char) : Bool := value ≠ [] && value.all Char.isDigit

/-- `int(val)` of digits. -/
def intOf (value : List Char) : Nat :=
  value.foldl (fun n c => 10 * n + (c.toNat - '0'.toNat)) 0

/-- `resolve(name, depth)` with `6 - depth` lookups left. -/
def resolve (raw : Dict (List Char) (List Char)) : Nat → List Char → Option Nat
  | 0, _ => none
  | fuel + 1, name =>
      match raw.get? name with
      | none => none
      | some value => if isDigits value then some (intOf value) else resolve raw fuel value

/-- One round of the loop over `raw`: the number of a macro and the name it offers. -/
def candidate (raw : Dict (List Char) (List Char)) (macroName : List Char) :
    Option (Nat × List Char) := do
  let short ← afterStart "__NR_".toList macroName
  if short = "syscalls".toList then none
  else
    let num ← resolve raw 6 macroName
    some (num, short)

/-- `names`, from each number to its name. -/
def chosenNames (lines : List (List Char)) : Dict Nat (List Char) :=
  .setDefaults (candidate (rawMacros lines)) (rawMacros lines).keys

/-! ## The generated file -/

/-- `syscall_names`, an array of `SYSCALL_TABLE_MAX + 1` pointers. -/
structure SyscallTable where
  max : Nat
  names : List (Option (List Char))
  size : names.length = max + 1

/-- The table that the script prints. -/
def generate (lines : List (List Char)) : SyscallTable where
  max := (chosenNames lines).keys.max?.getD 0
  names := (List.range ((chosenNames lines).keys.max?.getD 0 + 1)).map (chosenNames lines).get?
  size := by rw [List.length_map, List.length_range]

/-- The `syscall_name` that the script prints. -/
def SyscallTable.syscallName (table : SyscallTable) (nr : Int) : String :=
  if h : nr < 0 ∨ nr > table.max then "unknown"
  else
    have hlt : nr.toNat < table.names.length := by
      rw [table.size]
      omega
    match table.names[nr.toNat] with
    | none => "unknown"
    | some name => String.ofList name

/-! ## What the names should be -/

section Meaning

variable (lines : List (List Char))

/-- The right-hand side of a macro, by the last line that defines it. -/
def definition (macroName : List Char) : Option (List Char) :=
  lines.reverse.findSome? (Dict.valueFor matchDefine macroName)

/-- A macro stands for a number through so many other macros. -/
inductive StandsFor : Nat → List Char → Nat → Prop
  | number {m value : List Char} :
      definition lines m = some value → isDigits value → StandsFor 0 m (intOf value)
  | other {m value : List Char} {k n : Nat} :
      definition lines m = some value → isDigits value = false → StandsFor k value n →
        StandsFor (k + 1) m n

/-- The header has the name for the number, with at most five macros in between. -/
structure HasName (n : Nat) (short : List Char) : Prop where
  notCount : short ≠ "syscalls".toList
  stands : ∃ k ≤ 5, StandsFor lines k ("__NR_".toList ++ short) n

/-- Of the names for the number, the one that the header defines first. -/
structure Chosen (n : Nat) (short : List Char) : Prop where
  hasName : HasName lines n short
  first : ∀ other, HasName lines n other →
    Dict.firstAt matchDefine lines ("__NR_".toList ++ short) ≤
      Dict.firstAt matchDefine lines ("__NR_".toList ++ other)

end Meaning

/-! ## The dictionaries against the meaning -/

section Tables

variable {lines : List (List Char)}

theorem afterStart_eq_some {start s rest : List Char} :
    afterStart start s = some rest ↔ s = start ++ rest := by
  unfold afterStart
  split_ifs with h
  · obtain ⟨tail, rfl⟩ := h
    simp [eq_comm]
  · constructor
    · intro hnone
      cases hnone
    · rintro rfl
      exact absurd (List.prefix_append start rest) h

theorem rawMacros_get? (m : List Char) : (rawMacros lines).get? m = definition lines m :=
  Dict.assignAll_get? matchDefine lines m

theorem resolve_eq_some (fuel : Nat) (m : List Char) (n : Nat) :
    resolve (rawMacros lines) fuel m = some n ↔ ∃ k < fuel, StandsFor lines k m n := by
  induction fuel generalizing m with
  | zero => simp [resolve]
  | succ fuel ih =>
      rw [resolve, rawMacros_get?]
      constructor
      · intro h
        cases hdef : definition lines m with
        | none =>
            rw [hdef] at h
            cases h
        | some value =>
            rw [hdef] at h
            dsimp only at h
            split_ifs at h with hdigits
            · cases h
              exact ⟨0, Nat.succ_pos fuel, .number hdef hdigits⟩
            · obtain ⟨k, hk, hstands⟩ := (ih value).mp h
              exact ⟨k + 1, Nat.succ_lt_succ hk,
                .other hdef (Bool.eq_false_iff.mpr hdigits) hstands⟩
      · rintro ⟨k, hk, hstands⟩
        cases hstands with
        | number hdef hdigits =>
            rw [hdef]
            exact if_pos hdigits
        | other hdef hdigits hrest =>
            rw [hdef]
            refine (if_neg (Bool.eq_false_iff.mp hdigits)).trans ?_
            exact (ih _).mpr ⟨_, Nat.lt_of_succ_lt_succ hk, hrest⟩

theorem hasName_iff_resolve (n : Nat) (short : List Char) :
    HasName lines n short ↔ short ≠ "syscalls".toList ∧
      resolve (rawMacros lines) 6 ("__NR_".toList ++ short) = some n := by
  rw [resolve_eq_some]
  constructor
  · rintro ⟨hcount, k, hk, hstands⟩
    exact ⟨hcount, k, Nat.lt_succ_of_le hk, hstands⟩
  · rintro ⟨hcount, k, hk, hstands⟩
    exact ⟨hcount, k, Nat.le_of_lt_succ hk, hstands⟩

theorem candidate_eq_some (m : List Char) (n : Nat) (short : List Char) :
    candidate (rawMacros lines) m = some (n, short) ↔
      m = "__NR_".toList ++ short ∧ HasName lines n short := by
  rw [hasName_iff_resolve]
  unfold candidate
  constructor
  · intro h
    obtain ⟨short', hstart, h⟩ := Option.bind_eq_some_iff.mp h
    split_ifs at h with hcount
    obtain ⟨num, hres, h⟩ := Option.bind_eq_some_iff.mp h
    cases h
    rw [afterStart_eq_some] at hstart
    rw [hstart] at hres
    exact ⟨hstart, hcount, hres⟩
  · rintro ⟨rfl, hcount, hres⟩
    rw [afterStart_eq_some.mpr rfl, hres]
    exact if_neg hcount

theorem valueFor_candidate (m : List Char) (n : Nat) (short : List Char) :
    Dict.valueFor (candidate (rawMacros lines)) n m = some short ↔
      m = "__NR_".toList ++ short ∧ HasName lines n short := by
  rw [← candidate_eq_some, Dict.valueFor, Option.bind_eq_some_iff]
  constructor
  · rintro ⟨⟨n', short'⟩, he, h⟩
    dsimp only at h
    split_ifs at h with hn
    cases h
    rw [he, hn]
  · intro h
    exact ⟨_, h, if_pos rfl⟩

/-- A name for a number is the name of a macro that is there. -/
theorem HasName.mem_keys {n : Nat} {short : List Char} (h : HasName lines n short) :
    "__NR_".toList ++ short ∈ (rawMacros lines).keys := by
  obtain ⟨k, -, hstands⟩ := h.stands
  rw [← Dict.get?_isSome_iff, rawMacros_get?]
  cases hstands with
  | number hdef _ => rw [hdef, Option.isSome_some]
  | other hdef _ _ => rw [hdef, Option.isSome_some]

/-- The script's name for a number is the one that the header defines first. -/
theorem Chosen.of_get? {n : Nat} {short : List Char}
    (h : (chosenNames lines).get? n = some short) : Chosen lines n short := by
  rw [chosenNames, Dict.setDefaults_get?, List.findSome?_eq_some_iff] at h
  obtain ⟨before, m, after, hkeys, hm, hbefore⟩ := h
  obtain ⟨rfl, hname⟩ := (valueFor_candidate m n short).mp hm
  refine ⟨hname, fun other hother => ?_⟩
  have hordered := Dict.assignAll_ordered matchDefine lines
  rw [← rawMacros, hkeys] at hordered
  have hmem := hother.mem_keys
  rw [hkeys] at hmem
  rcases List.mem_append.mp hmem with hmem | hmem
  · -- a macro before the chosen one offers nothing for this number
    have hsome := (valueFor_candidate _ n other).mpr ⟨rfl, hother⟩
    rw [hbefore _ hmem] at hsome
    cases hsome
  · rcases List.mem_cons.mp hmem with heq | hmem
    · exact Nat.le_of_eq (by rw [heq])
    · have hlater := (List.pairwise_append.mp hordered).2.1
      exact Nat.le_of_lt ((List.pairwise_cons.mp hlater).1 _ hmem)

theorem Chosen.unique {n : Nat} {short short' : List Char} (h : Chosen lines n short)
    (h' : Chosen lines n short') : short = short' := by
  have hsame := Nat.le_antisymm (h.first _ h'.hasName) (h'.first _ h.hasName)
  exact List.append_cancel_left
    (Dict.firstAt_inj matchDefine lines h.hasName.mem_keys h'.hasName.mem_keys hsame)

theorem HasName.get?_isSome {n : Nat} {short : List Char} (h : HasName lines n short) :
    ((chosenNames lines).get? n).isSome := by
  rw [chosenNames, Dict.setDefaults_get?, List.findSome?_isSome_iff]
  refine ⟨_, h.mem_keys, ?_⟩
  rw [(valueFor_candidate _ n short).mpr ⟨rfl, h⟩, Option.isSome_some]

end Tables

/-! ## The generated function -/

section Generated

variable {lines : List (List Char)}

theorem chosenNames_le_max {n : Nat} {short : List Char}
    (h : (chosenNames lines).get? n = some short) : n ≤ (generate lines).max := by
  refine List.le_max?_getD_of_mem ((Dict.get?_isSome_iff _ n).mp ?_)
  rw [h, Option.isSome_some]

/-- The array has exactly the script's names, and the range test hides none. -/
theorem syscallName_natCast (n : Nat) :
    (generate lines).syscallName n =
      ((chosenNames lines).get? n).elim "unknown" String.ofList := by
  unfold SyscallTable.syscallName
  by_cases hmax : n ≤ (generate lines).max
  · have hrange : ¬((n : Int) < 0 ∨ (n : Int) > (generate lines).max) := by omega
    have hentry (h : ((n : Int).toNat) < (generate lines).names.length) :
        (generate lines).names[(n : Int).toNat] = (chosenNames lines).get? n := by
      simp [generate]
    rw [dif_neg hrange]
    dsimp only
    rw [hentry]
    cases (chosenNames lines).get? n <;> rfl
  · have hrange : (n : Int) < 0 ∨ (n : Int) > (generate lines).max := by omega
    have hnone : (chosenNames lines).get? n = none := by
      refine Option.eq_none_iff_forall_ne_some.mpr fun short h => hmax (chosenNames_le_max h)
    rw [dif_pos hrange, hnone]
    rfl

theorem syscallName_neg {nr : Int} (h : nr < 0) : (generate lines).syscallName nr = "unknown" :=
  dif_pos (Or.inl h)

/-- The numbers without a name are `unknown`. -/
theorem syscallName_unnamed {nr : Int}
    (h : ∀ (n : Nat) (short : List Char), nr = n → ¬HasName lines n short) :
    (generate lines).syscallName nr = "unknown" := by
  cases nr with
  | negSucc n => exact syscallName_neg (Int.negSucc_lt_zero n)
  | ofNat n =>
      have hnone : (chosenNames lines).get? n = none :=
        Option.eq_none_iff_forall_ne_some.mpr fun short hget =>
          h n short rfl (Chosen.of_get? hget).hasName
      rw [Int.ofNat_eq_natCast, syscallName_natCast, hnone, Option.elim_none]

/-- There is no third case. -/
theorem chosen_or_unnamed (lines : List (List Char)) (nr : Int) :
    (∃ n : Nat, nr = n ∧ Chosen lines n ((generate lines).syscallName nr).toList) ∨
      (generate lines).syscallName nr = "unknown" ∧
        ∀ (n : Nat) (short : List Char), nr = n → ¬HasName lines n short := by
  by_cases h : ∃ (n : Nat) (short : List Char), nr = n ∧ HasName lines n short
  · obtain ⟨n, short, rfl, hname⟩ := h
    obtain ⟨short', hget⟩ := Option.isSome_iff_exists.mp hname.get?_isSome
    refine Or.inl ⟨n, rfl, ?_⟩
    rw [syscallName_natCast, hget, Option.elim_some, String.toList_ofList]
    exact Chosen.of_get? hget
  · have hno : ∀ (n : Nat) (short : List Char), nr = n → ¬HasName lines n short :=
      fun n short hn hname => h ⟨n, short, hn, hname⟩
    exact Or.inr ⟨syscallName_unnamed hno, hno⟩

/-- The groups of the pattern: the name of a macro is made of word characters. -/
theorem matchDefine_isWord {line m value : List Char} (h : matchDefine line = some (m, value)) :
    ∀ c ∈ m, isWord c := by
  obtain ⟨rest, -, h⟩ := Option.bind_eq_some_iff.mp h
  obtain ⟨_, _, h⟩ := Option.bind_eq_some_iff.mp h
  obtain ⟨rest', -, h⟩ := Option.bind_eq_some_iff.mp h
  obtain ⟨_, _, h⟩ := Option.bind_eq_some_iff.mp h
  obtain ⟨_, _, h⟩ := Option.bind_eq_some_iff.mp h
  cases h
  intro c hc
  rcases List.mem_append.mp hc with hc | hc
  · have hstart : "__NR".toList.all isWord = true := by decide
    exact List.all_eq_true.mp hstart c hc
  · exact List.mem_takeWhile_imp hc

theorem HasName.isWord {n : Nat} {short : List Char} (h : HasName lines n short) :
    ∀ c ∈ short, isWord c := by
  intro c hc
  have hdef : (definition lines ("__NR_".toList ++ short)).isSome := by
    rw [← rawMacros_get?, Dict.get?_isSome_iff]
    exact h.mem_keys
  obtain ⟨line, -, hline⟩ := List.findSome?_isSome_iff.mp hdef
  obtain ⟨value, hvalue⟩ := Option.isSome_iff_exists.mp hline
  obtain ⟨⟨m, value'⟩, hmatch, hm⟩ := Option.bind_eq_some_iff.mp hvalue
  dsimp only at hm
  split_ifs at hm with heq
  refine matchDefine_isWord hmatch c ?_
  rw [← heq]
  exact List.mem_append_right _ hc

/-- Every name is made of word characters. -/
theorem syscallName_isWord (lines : List (List Char)) (nr : Int) :
    ∀ c ∈ ((generate lines).syscallName nr).toList, isWord c := by
  rcases chosen_or_unnamed lines nr with ⟨n, -, hchosen⟩ | ⟨hunknown, -⟩
  · exact hchosen.hasName.isWord
  · have hword : "unknown".toList.all isWord = true := by decide
    rw [hunknown]
    exact List.all_eq_true.mp hword

end Generated

end MiniStrace
