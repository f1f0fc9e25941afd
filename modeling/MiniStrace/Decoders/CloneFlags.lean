/-
  Decoders/CloneFlags.lean --- what the text of `format_clone_flags_value` determines.

  THREE PIECES.  The function walks its table, prints the exit signal, and then the bits
  the walk has left.  A reader turns each part back into a flag word or a signal, with a
  signal table that agrees with the one the C library prints from.

  WHAT IS LOST.  The test for an empty text comes before the leftover is printed, so flags
  outside the table vanish when nothing else was printed.  The signal's name is looked up
  by the low half of the number, so two numbers can share a name.
-/
import MiniStrace.Decoders.Lossless

set_option autoImplicit false

namespace MiniStrace

open CLib OutBuf

/-! ## Reading the text -/

/-- A reader's table of signal names: every name the C library hands out belongs to the
number it was asked for. -/
structure SignalNames (host : Host) (signum : Text → Option Nat) : Prop where
  sound : ∀ (n : Int) (name : Text), host.sigabbrev n = some name →
    ∃ k : Nat, n = k ∧ signum name = some k
  noBar : ∀ (n : Int) (name : Text), host.sigabbrev n = some name → 0x7c ∉ name

/-- What a part of the text stands for. -/
inductive ClonePart where
  | flag (value : Word)
  | signal (number : Nat)

/-- The reading of a part: a flag, `0`, a signal by name, other flags in hex, or a signal by
number. -/
def clonePart (signum : Text → Option Nat) (part : Text) : Option ClonePart :=
  match cloneFlagTable.find? (fun e => lit e.name == part) with
  | some e => some (.flag e.value)
  | none =>
      if part = lit "0" then some (.flag 0)
      else if (lit "SIG").isPrefixOf part then (signum (part.drop 3)).map .signal
      else match readHex part with
        | some n => some (.flag (BitVec.ofNat 64 n))
        | none => some (.signal (readNumeral 10 part))

/-- The flag words among the parts. -/
def flagWords (parts : List ClonePart) : List Word :=
  parts.filterMap fun | .flag v => some v | .signal _ => none

/-- The signals among the parts. -/
def signalNumbers (parts : List ClonePart) : List Nat :=
  parts.filterMap fun | .flag _ => none | .signal n => some n

/-- The text reads as these flags and these signals. -/
def CloneReads (signum : Text → Option Nat) (t : Text) (flags : Word) (signals : List Nat) : Prop :=
  ∃ parts, (t.splitOn 0x7c).map (clonePart signum) = parts.map some ∧
    orAll (flagWords parts) = flags ∧ signalNumbers parts = signals

theorem CloneReads.unique {signum : Text → Option Nat} {t : Text} {flags flags' : Word}
    {signals signals' : List Nat} (h : CloneReads signum t flags signals)
    (h' : CloneReads signum t flags' signals') : flags = flags' ∧ signals = signals' := by
  obtain ⟨ps, hps, rfl, rfl⟩ := h
  obtain ⟨qs, hqs, rfl, rfl⟩ := h'
  have heq : ps = qs := List.map_injective_iff.mpr (Option.some_injective _) (hps.symm.trans hqs)
  rw [heq]
  exact ⟨rfl, rfl⟩

section Clone

variable {host : Host} {signum : Text → Option Nat}

theorem cloneTable_readable : readable cloneFlagTable = true := by with_unfolding_all decide

theorem cloneTable_plain : plainTable cloneFlagTable = true := by with_unfolding_all decide

/-- Every name of the table starts with a `C`. -/
theorem cloneName_head {e : FlagEntry} (he : e ∈ cloneFlagTable) :
    ∃ rest, lit e.name = 0x43 :: rest := by
  have hall : ∀ e ∈ cloneFlagTable, (lit e.name).head? = some 0x43 := by with_unfolding_all decide
  obtain ⟨c, rest, hc⟩ := List.exists_cons_of_ne_nil (plain_of_mem cloneTable_plain he).ne_nil
  have hhead := hall e he
  rw [hc, List.head?_cons, Option.some.injEq] at hhead
  exact ⟨rest, by rw [hc, hhead]⟩

theorem find_of_head {part : Text} {c : Byte} (h : part.head? = some c) (hc : c ≠ 0x43) :
    cloneFlagTable.find? (fun e => lit e.name == part) = none := by
  refine List.find?_eq_none.mpr fun e he hname => ?_
  obtain ⟨rest, hrest⟩ := cloneName_head he
  rw [← beq_iff_eq.mp hname, hrest, List.head?_cons, Option.some.injEq] at h
  exact hc h.symm

theorem clonePart_flag {e : FlagEntry} (he : e ∈ cloneFlagTable) :
    clonePart signum (lit e.name) = some (.flag e.value) := by
  have hnodup : (cloneFlagTable.map fun e => lit e.name).Nodup :=
    of_decide_eq_true (Bool.and_eq_true _ _ ▸ cloneTable_readable).1
  cases hfind : cloneFlagTable.find? (fun e' => lit e'.name == lit e.name) with
  | none => exact absurd (List.find?_eq_none.mp hfind e he) (by simp)
  | some e' =>
      have hname : lit e'.name = lit e.name := by simpa using List.find?_some hfind
      rw [clonePart, hfind,
        List.inj_on_of_nodup_map hnodup (List.mem_of_find?_eq_some hfind) he hname]

theorem clonePart_zero : clonePart signum (lit "0") = some (.flag 0) := by
  have hhead : (lit "0").head? = some 0x30 := by with_unfolding_all decide
  rw [clonePart, find_of_head hhead (by decide)]
  simp

theorem lit_zero : lit "0" = [0x30] := by with_unfolding_all decide

theorem clonePart_hex (v : Word) : clonePart signum (hex0x v.toNat) = some (.flag v) := by
  have hhead : (hex0x v.toNat).head? = some 0x30 := by simp [hex0x, lit_hexLead]
  have hzero : hex0x v.toNat ≠ lit "0" := by simp [hex0x, lit_hexLead, lit_zero]
  have hsig : ¬ (lit "SIG").isPrefixOf (hex0x v.toNat) = true := by
    simp [hex0x, lit_hexLead, lit_sig]
  rw [clonePart, find_of_head hhead (by decide)]
  simp only [if_neg hzero, if_neg hsig, readHex_hex0x]
  simp

/-- The number the text of a signal is read as: the one the name was looked up by, or the
one that was printed. -/
def shownSignal (host : Host) (exitSignal : Word) : Nat :=
  match host.sigabbrev (signed 32 (exitSignal.toNat % 2 ^ 32)) with
  | some _ => exitSignal.toNat % 2 ^ 32
  | none => exitSignal.toNat

theorem clonePart_signal (hs : SignalNames host signum) {exitSignal : Word} (hne : exitSignal ≠ 0) :
    clonePart signum (exitSignalText host exitSignal) =
      some (.signal (shownSignal host exitSignal)) := by
  unfold exitSignalText shownSignal
  cases hname : host.sigabbrev (signed 32 (exitSignal.toNat % 2 ^ 32)) with
  | some name =>
      obtain ⟨k, hk, hsignum⟩ := hs.sound _ name hname
      have hval : exitSignal.toNat % 2 ^ 32 = k := by
        unfold signed Int.bmod at hk
        dsimp only at hk
        split at hk <;> omega
      have hhead : (lit "SIG" ++ name).head? = some 0x53 := by simp [lit_sig]
      have hzero : lit "SIG" ++ name ≠ lit "0" := by simp [lit_sig, lit_zero]
      have hsig : (lit "SIG").isPrefixOf (lit "SIG" ++ name) = true :=
        List.isPrefixOf_iff_prefix.mpr (List.prefix_append _ _)
      have hdrop : (lit "SIG" ++ name).drop 3 = name := by simp [lit_sig]
      dsimp only
      rw [clonePart, find_of_head hhead (by decide)]
      simp only [if_neg hzero, if_pos hsig, hdrop, hsignum, hval, Option.map_some]
  | none =>
      dsimp only
      obtain ⟨c, rest, hc⟩ := List.exists_cons_of_ne_nil (numeral_ne_nil 10 exitSignal.toNat)
      have hdec : dec exitSignal.toNat = c :: rest := hc
      have hdigit := mem_dec (n := exitSignal.toNat) (b := c) (by rw [hdec]; exact List.mem_cons_self)
      have hhead : (dec exitSignal.toNat).head? = some c := by rw [hdec, List.head?_cons]
      have hbyte : c ≠ 0x43 ∧ c ≠ 0x53 := by
        constructor <;> rintro rfl <;> exact absurd hdigit.2 (by decide)
      have hzero : dec exitSignal.toNat ≠ lit "0" := by
        have hdec0 : lit "0" = dec 0 := by with_unfolding_all decide
        rw [hdec0]
        exact fun h => hne (BitVec.eq_of_toNat_eq (dec_injective h))
      have hsig : ¬ (lit "SIG").isPrefixOf (dec exitSignal.toNat) = true := by
        rw [hdec, lit_sig]
        simp [Ne.symm hbyte.2]
      have hhex : readHex (dec exitSignal.toNat) = none := by
        rw [readHex, lit_hexLead, if_neg]
        intro hpre
        obtain ⟨tail, htail⟩ := List.isPrefixOf_iff_prefix.mp hpre
        have hx := mem_dec (n := exitSignal.toNat) (b := 0x78) (by rw [← htail]; simp)
        exact absurd hx.2 (by decide)
      rw [clonePart, find_of_head hhead hbyte.1]
      simp only [if_neg hzero, if_neg hsig, hhex]
      exact congrArg (some ∘ ClonePart.signal) (ofDigits_numeral (by decide) (by decide))

end Clone

/-! ## The parts of the text -/

/-- The text of the exit signal, when there is one. -/
def signalParts (host : Host) (exitSignal : Word) : List Text :=
  if exitSignal ≠ 0 then [exitSignalText host exitSignal] else []

/-- The signal that is read back, when there is one. -/
def signalMeaning (host : Host) (exitSignal : Word) : List ClonePart :=
  if exitSignal ≠ 0 then [.signal (shownSignal host exitSignal)] else []

/-- The leftover that is read back, when there is one. -/
def restMeaning (v : Word) : List ClonePart := if v ≠ 0 then [.flag v] else []

/-- What is printed before the test for an empty text. -/
def firstParts (host : Host) (flags exitSignal : Word) : List Text :=
  entryNames (hits false cloneFlagTable flags) ++ signalParts host exitSignal

theorem signalParts_solid (host : Host) (exitSignal : Word) :
    Solid (signalParts host exitSignal) := by
  unfold signalParts
  split
  · refine solid_singleton ?_
    unfold exitSignalText
    split
    · simp [lit_sig]
    · exact numeral_ne_nil 10 _
  · simp [Solid]

theorem firstParts_solid (host : Host) (flags exitSignal : Word) :
    Solid (firstParts host flags exitSignal) :=
  (entryNames_solid cloneTable_plain (hits_subset false cloneFlagTable flags)).append
    (signalParts_solid host exitSignal)

theorem cloneFlagsText_parts (host : Host) (flags exitSignal : Word) :
    cloneFlagsText host flags exitSignal =
      if firstParts host flags exitSignal = [] then lit "0"
      else joinBars (firstParts host flags exitSignal ++
        restParts (leftover false cloneFlagTable flags)) := by
  have hsolid := firstParts_solid host flags exitSignal
  have hnames := entryNames_solid cloneTable_plain (hits_subset false cloneFlagTable flags)
  have hwalk := walkText_parts cloneTable_plain false [] (by simp [Solid]) flags
  rw [List.nil_append, show joinBars [] = [] from rfl] at hwalk
  have hfirst : joinBars (firstParts host flags exitSignal) =
      joinBars (entryNames (hits false cloneFlagTable flags)) ++
        if exitSignal ≠ 0 then
          barText (joinBars (entryNames (hits false cloneFlagTable flags))) ++
            exitSignalText host exitSignal
        else [] := by
    unfold firstParts signalParts
    split
    · rw [joinBars_snoc hnames]
    · rw [List.append_nil, List.append_nil]
  have hrest : joinBars (firstParts host flags exitSignal ++
      restParts (leftover false cloneFlagTable flags)) =
      joinBars (firstParts host flags exitSignal) ++
        if leftover false cloneFlagTable flags ≠ 0 then
          barText (joinBars (firstParts host flags exitSignal)) ++
            hex0x (leftover false cloneFlagTable flags).toNat
        else [] := by
    unfold restParts
    split
    · rw [joinBars_snoc hsolid]
    · rw [List.append_nil, List.append_nil]
  unfold cloneFlagsText
  dsimp only
  rw [hwalk]
  dsimp only
  rw [← hfirst]
  by_cases hnil : firstParts host flags exitSignal = []
  · rw [if_pos ((joinBars_eq_nil hsolid).mpr hnil), if_pos hnil]
  · have hne : joinBars (firstParts host flags exitSignal) ≠ [] :=
      fun h => hnil ((joinBars_eq_nil hsolid).mp h)
    rw [if_neg hne, if_neg hnil, hrest, barText, if_neg hne]

/-! ## What the text is read as -/

/-- Parts with what a reader makes of them. -/
structure CloneSpells (signum : Text → Option Nat) (parts : List Text)
    (meaning : List ClonePart) : Prop where
  values : parts.map (clonePart signum) = meaning.map some
  noBar : ∀ p ∈ parts, 0x7c ∉ p

theorem CloneSpells.append {signum : Text → Option Nat} {ps qs : List Text}
    {ms ns : List ClonePart} (hp : CloneSpells signum ps ms) (hq : CloneSpells signum qs ns) :
    CloneSpells signum (ps ++ qs) (ms ++ ns) := by
  refine ⟨by rw [List.map_append, List.map_append, hp.values, hq.values], fun p hmem => ?_⟩
  rcases List.mem_append.mp hmem with hmem | hmem
  · exact hp.noBar p hmem
  · exact hq.noBar p hmem

theorem CloneSpells.reads {signum : Text → Option Nat} {parts : List Text}
    {meaning : List ClonePart} (h : CloneSpells signum parts meaning) (hne : parts ≠ []) :
    CloneReads signum (joinBars parts) (orAll (flagWords meaning)) (signalNumbers meaning) :=
  ⟨meaning, by rw [splitOn_joinBars hne h.noBar, h.values], rfl, rfl⟩

section Meaning

variable {host : Host} {signum : Text → Option Nat}

theorem hits_spells (flags : Word) :
    CloneSpells signum (entryNames (hits false cloneFlagTable flags))
      ((hits false cloneFlagTable flags).map fun e => .flag e.value) := by
  have hsub := hits_subset false cloneFlagTable flags
  refine ⟨?_, fun p hp => ?_⟩
  · rw [entryNames, List.map_map, List.map_map]
    exact List.map_congr_left fun e he => clonePart_flag (hsub e he)
  · obtain ⟨e, he, rfl⟩ := List.mem_map.mp hp
    exact bar_not_mem_name cloneTable_readable (hsub e he)

theorem signal_spells (hs : SignalNames host signum) (exitSignal : Word) :
    CloneSpells signum (signalParts host exitSignal) (signalMeaning host exitSignal) := by
  unfold signalParts signalMeaning
  split
  · rename_i hne
    refine ⟨by simp [clonePart_signal hs hne], fun p hp => ?_⟩
    rw [List.mem_singleton.mp hp]
    unfold exitSignalText
    cases hname : host.sigabbrev (signed 32 (exitSignal.toNat % 2 ^ 32)) with
    | some name =>
        have hlit : (0x7c : Byte) ∉ lit "SIG" := by with_unfolding_all decide
        exact fun hmem => (List.mem_append.mp hmem).elim hlit (hs.noBar _ name hname)
    | none => exact fun hmem => absurd (mem_dec hmem).2 (by decide)
  · exact ⟨rfl, by simp⟩

theorem rest_spells (signum : Text → Option Nat) (v : Word) :
    CloneSpells signum (restParts v) (restMeaning v) := by
  unfold restParts restMeaning
  split
  · refine ⟨by simp [clonePart_hex], fun p hp => ?_⟩
    rw [List.mem_singleton.mp hp]
    exact bar_not_mem_hex0x _
  · exact ⟨rfl, by simp⟩

/-- The flag words of all parts make up the flags. -/
theorem flagWords_meaning (flags exitSignal : Word) :
    orAll (flagWords (((hits false cloneFlagTable flags).map fun e => .flag e.value) ++
      signalMeaning host exitSignal ++ restMeaning (leftover false cloneFlagTable flags))) =
      flags := by
  have hor := (walkWords_spec false cloneFlagTable flags).1
  rw [walkWords, orAll_append] at hor
  have hhits : flagWords ((hits false cloneFlagTable flags).map fun e => .flag e.value) =
      (hits false cloneFlagTable flags).map (·.value) := by
    rw [flagWords, List.filterMap_map]
    exact congrFun List.filterMap_eq_map _
  have hsignal : flagWords (signalMeaning host exitSignal) = [] := by
    unfold signalMeaning
    split <;> rfl
  have hrest : orAll (flagWords (restMeaning (leftover false cloneFlagTable flags))) =
      orAll [leftover false cloneFlagTable flags] := by
    unfold restMeaning
    split
    · rfl
    · rename_i hzero
      rw [not_not.mp hzero]
      rfl
  rw [flagWords, List.filterMap_append, List.filterMap_append, orAll_append, orAll_append]
  change (orAll (flagWords _) ||| orAll (flagWords _)) ||| orAll (flagWords _) = flags
  rw [hhits, hsignal, hrest, orAll_nil, show ∀ x : Word, x ||| 0 = x from fun x => BitVec.or_zero]
  exact hor

theorem signalNumbers_meaning (flags exitSignal : Word) :
    signalNumbers (((hits false cloneFlagTable flags).map fun e => .flag e.value) ++
      signalMeaning host exitSignal ++ restMeaning (leftover false cloneFlagTable flags)) =
      if exitSignal = 0 then [] else [shownSignal host exitSignal] := by
  have hhits : signalNumbers ((hits false cloneFlagTable flags).map fun e => .flag e.value) =
      [] := by
    rw [signalNumbers, List.filterMap_map]
    exact List.filterMap_eq_nil_iff.mpr fun _ _ => rfl
  have hrest : signalNumbers (restMeaning (leftover false cloneFlagTable flags)) = [] := by
    unfold restMeaning
    split <;> rfl
  rw [signalNumbers, List.filterMap_append, List.filterMap_append]
  change signalNumbers _ ++ signalNumbers _ ++ signalNumbers _ = _
  rw [hhits, hrest, List.append_nil, List.nil_append]
  unfold signalMeaning
  by_cases hzero : exitSignal = 0
  · rw [if_pos hzero, if_neg (not_not_intro hzero)]
    rfl
  · rw [if_neg hzero, if_pos hzero]
    rfl

/-- The one reading of the text. -/
theorem cloneFlagsText_reads (hs : SignalNames host signum) (flags exitSignal : Word) :
    CloneReads signum (cloneFlagsText host flags exitSignal)
      (if firstParts host flags exitSignal = [] then 0 else flags)
      (if exitSignal = 0 then [] else [shownSignal host exitSignal]) := by
  rw [cloneFlagsText_parts]
  by_cases hnil : firstParts host flags exitSignal = []
  · have hzero : exitSignal = 0 := by
      by_contra hne
      have := (List.append_eq_nil_iff.mp hnil).2
      rw [signalParts, if_pos hne] at this
      exact absurd this (by simp)
    have hsplit : (lit "0").splitOn 0x7c = [lit "0"] := by with_unfolding_all decide
    rw [if_pos hnil, if_pos hnil, if_pos hzero]
    exact ⟨[.flag 0], by rw [hsplit]; simp [clonePart_zero], by simp [flagWords], rfl⟩
  · have hspells := ((hits_spells flags).append (signal_spells hs exitSignal)).append
      (rest_spells signum (leftover false cloneFlagTable flags))
    have hreads := hspells.reads (fun h => hnil (List.append_eq_nil_iff.mp h).1)
    rw [flagWords_meaning, signalNumbers_meaning] at hreads
    rw [if_neg hnil, if_neg hnil]
    exact hreads

end Meaning

/-! ## When nothing is lost -/

theorem hits_eq_nil_iff (table : List FlagEntry) (v : Word) :
    hits false table v = [] ↔ ∀ e ∈ table, v &&& e.value ≠ e.value := by
  have hhit : ∀ e : FlagEntry, e.hit false v = true ↔ v &&& e.value = e.value := by
    simp [FlagEntry.hit]
  induction table with
  | nil => simp [hits]
  | cons e es ih =>
      rw [hits, List.forall_mem_cons]
      by_cases he : v &&& e.value = e.value
      · rw [if_pos ((hhit e).mpr he)]
        simp [he]
      · rw [if_neg (fun h => he ((hhit e).mp h))]
        exact ih.trans ⟨fun h => ⟨he, h⟩, fun h => h.2⟩

/-- Something is printed before the test for an empty text, or there is nothing to print. -/
def CloneFlagsKept (flags exitSignal : Word) : Prop :=
  exitSignal ≠ 0 ∨ flags = 0 ∨ ∃ e ∈ cloneFlagTable, flags &&& e.value = e.value

/-- The lookup of the signal's name sees the whole number. -/
def CloneSignalKept (host : Host) (exitSignal : Word) : Prop :=
  exitSignal.toNat < 2 ^ 32 ∨ host.sigabbrev (signed 32 (exitSignal.toNat % 2 ^ 32)) = none

theorem firstParts_eq_nil_iff (host : Host) (flags exitSignal : Word) :
    firstParts host flags exitSignal = [] ↔
      exitSignal = 0 ∧ ∀ e ∈ cloneFlagTable, flags &&& e.value ≠ e.value := by
  have hsignal : signalParts host exitSignal = [] ↔ exitSignal = 0 := by
    unfold signalParts
    split <;> simp_all
  rw [firstParts, List.append_eq_nil_iff, entryNames, List.map_eq_nil_iff, hits_eq_nil_iff,
    hsignal, and_comm]

theorem flagsKept_iff (host : Host) (flags exitSignal : Word) :
    (if firstParts host flags exitSignal = [] then 0 else flags) = flags ↔
      CloneFlagsKept flags exitSignal := by
  unfold CloneFlagsKept
  by_cases hnil : firstParts host flags exitSignal = []
  · obtain ⟨hzero, hnone⟩ := (firstParts_eq_nil_iff host flags exitSignal).mp hnil
    rw [if_pos hnil]
    constructor
    · exact fun h => Or.inr (Or.inl h.symm)
    · rintro (h | h | ⟨e, he, h⟩)
      · exact absurd hzero h
      · exact h.symm
      · exact absurd h (hnone e he)
  · rw [if_neg hnil]
    refine ⟨fun _ => ?_, fun _ => rfl⟩
    rw [firstParts_eq_nil_iff, not_and_or] at hnil
    rcases hnil with h | h
    · exact Or.inl h
    · push Not at h
      exact Or.inr (Or.inr h)

theorem signalKept_iff (host : Host) (exitSignal : Word) :
    (if exitSignal = 0 then [] else [shownSignal host exitSignal]) =
      (if exitSignal = 0 then [] else [exitSignal.toNat]) ↔ CloneSignalKept host exitSignal := by
  unfold CloneSignalKept
  by_cases hzero : exitSignal = 0
  · simp [hzero]
  · rw [if_neg hzero, if_neg hzero, shownSignal]
    cases hname : host.sigabbrev (signed 32 (exitSignal.toNat % 2 ^ 32)) with
    | some name =>
        simp only [List.cons.injEq, and_true, reduceCtorEq, or_false]
        omega
    | none => simp

/-- `format_clone_flags_value` and `format_clone_flags`: the text reads back as the flags
and the signal exactly when some flag of the table or a signal is there beside the other
flags, and the number of a signal with a name fits an `int`. -/
theorem cloneFlags_readBack_iff {host : Host} {signum : Text → Option Nat}
    (hs : SignalNames host signum) :
    (∀ flags exitSignal : Word,
      Prints (formatCloneFlagsValue host flags exitSignal) (cloneFlagsText host flags exitSignal) ∧
      (CloneReads signum (cloneFlagsText host flags exitSignal) flags
          (if exitSignal = 0 then [] else [exitSignal.toNat]) ↔
        CloneFlagsKept flags exitSignal ∧ CloneSignalKept host exitSignal)) ∧
    (∀ value : Word,
      Prints (formatCloneFlags host value)
        (cloneFlagsText host (value &&& ~~~0xff) (value &&& 0xff)) ∧
      (CloneReads signum (cloneFlagsText host (value &&& ~~~0xff) (value &&& 0xff))
          (value &&& ~~~0xff)
          (if value &&& 0xff = 0 then [] else [(value &&& 0xff).toNat]) ↔
        CloneFlagsKept (value &&& ~~~0xff) (value &&& 0xff))) := by
  have hvalue : ∀ flags exitSignal : Word,
      CloneReads signum (cloneFlagsText host flags exitSignal) flags
          (if exitSignal = 0 then [] else [exitSignal.toNat]) ↔
        CloneFlagsKept flags exitSignal ∧ CloneSignalKept host exitSignal := by
    intro flags exitSignal
    have hreads := cloneFlagsText_reads hs flags exitSignal
    rw [← flagsKept_iff host, ← signalKept_iff]
    constructor
    · exact fun h => hreads.unique h
    · rintro ⟨hflags, hsignal⟩
      rwa [hflags, hsignal] at hreads
  refine ⟨fun flags exitSignal => ⟨formatCloneFlagsValue_prints host flags exitSignal,
    hvalue flags exitSignal⟩, fun value => ⟨formatCloneFlagsValue_prints host _ _, ?_⟩⟩
  -- the low byte is a small number, so its lookup is exact
  have hsmall : CloneSignalKept host (value &&& 0xff) := by
    left
    have : (value &&& 0xff).toNat ≤ 0xff := by
      rw [BitVec.toNat_and]
      exact Nat.and_le_right
    omega
  rw [hvalue]
  exact and_iff_left hsmall

/-- A C library with one signal name. -/
def chldHost : Host :=
  { (default : Host) with sigabbrev := fun n => if n = 17 then some (lit "CHLD") else none }

/-- The table a reader has for it. -/
def chldNumber (name : Text) : Option Nat := if name = lit "CHLD" then some 17 else none

theorem chldHost_sigabbrev {n : Int} {name : Text} (h : chldHost.sigabbrev n = some name) :
    n = 17 ∧ name = lit "CHLD" := by
  simp only [chldHost] at h
  split at h
  · rename_i hn
    exact ⟨hn, (Option.some.inj h).symm⟩
  · exact absurd h (by simp)

theorem chld_signalNames : SignalNames chldHost chldNumber := by
  have hbar : (0x7c : Byte) ∉ lit "CHLD" := by with_unfolding_all decide
  constructor
  · intro n name h
    obtain ⟨hn, rfl⟩ := chldHost_sigabbrev h
    exact ⟨17, hn, if_pos rfl⟩
  · intro n name h
    rw [(chldHost_sigabbrev h).2]
    exact hbar

theorem cloneFlags_readBack_chld :
    SignalNames chldHost chldNumber ∧
      CloneReads chldNumber (cloneFlagsText chldHost 0x10000100 17) 0x10000100 [17] := by
  have h := ((cloneFlags_readBack_iff chld_signalNames).1 0x10000100 17).2
  exact ⟨chld_signalNames, h.mpr ⟨Or.inl (by decide), Or.inl (by decide)⟩⟩

/-- `CLONE_CLEAR_SIGHAND` alone prints as no flag at all, and a signal number above 32 bits
prints as another signal's name. -/
theorem cloneFlags_bits_lost :
    cloneFlagsText chldHost 0x100000000 0 = lit "0" ∧
    cloneFlagsText chldHost 0 0 = lit "0" ∧
    cloneFlagsText chldHost 0 0x100000011 = lit "SIGCHLD" ∧
    cloneFlagsText chldHost 0 17 = lit "SIGCHLD" ∧
    formatCloneFlags chldHost 0x100000000 = formatCloneFlagsValue chldHost 0x100000000 0 ∧
    (formatCloneFlagsValue chldHost 0x100000000 0 (new 8 fun _ => 0x2a)).str = lit "0" := by
  refine ⟨by with_unfolding_all decide, by with_unfolding_all decide,
    by with_unfolding_all decide, by with_unfolding_all decide, rfl,
    by with_unfolding_all decide⟩

end MiniStrace
