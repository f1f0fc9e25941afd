/-
  Decoders/Plain.lean --- the decoders that only look at a value print plain text.

  Their texts are made of the names of a table, of numerals and of names of the C
  library, so none of them is empty and none holds a control byte, provided the names
  of the library do not.  The names of the tables are checked once.
-/
import MiniStrace.Decoders.Flags

set_option autoImplicit false

namespace MiniStrace

open CLib OutBuf

/-- No name the C library hands out holds a control byte. -/
structure Host.CleanNames (host : Host) : Prop where
  sigabbrev : ∀ n t, host.sigabbrev n = some t → Clean t
  sigdescr : ∀ n t, host.sigdescr n = some t → Clean t
  strerrorname : ∀ n t, host.strerrorname n = some t → Clean t
  inetNtop6 : ∀ a t, host.inetNtop6 a = some t → Clean t

/-- A C library without names hands out none with a control byte. -/
theorem default_cleanNames : (default : Host).CleanNames :=
  ⟨fun _ _ h => absurd h (by simp [default]), fun _ _ h => absurd h (by simp [default]),
    fun _ _ h => absurd h (by simp [default]), fun _ _ h => absurd h (by simp [default])⟩

theorem clean_orNull {name : Option Text} (h : ∀ t, name = some t → Clean t) :
    Clean (orNull name) := by
  cases name with
  | none =>
      show Clean (lit "(null)")
      with_unfolding_all decide
  | some t => exact h t rfl

/-! ## The tables -/

/-- Every name of the table is plain. -/
def plainTable (table : List FlagEntry) : Bool := table.all fun e => decide (Plain (lit e.name))

theorem plain_of_mem {table : List FlagEntry} (h : plainTable table = true) {e : FlagEntry}
    (he : e ∈ table) : Plain (lit e.name) :=
  of_decide_eq_true (List.all_eq_true.mp h e he)

theorem plainTable_tail {e : FlagEntry} {es : List FlagEntry} (h : plainTable (e :: es) = true) :
    Plain (lit e.name) ∧ plainTable es = true :=
  ⟨plain_of_mem h List.mem_cons_self, List.all_eq_true.mpr fun x hx =>
    List.all_eq_true.mp h x (List.mem_cons_of_mem _ hx)⟩

/-! ## Walks -/

theorem clean_barText (t : Text) : Clean (barText t) := by
  unfold barText
  split
  · exact clean_nil
  · with_unfolding_all decide

theorem walkText_clean {table : List FlagEntry} (h : plainTable table = true) (skipZero : Bool)
    {t : Text} (ht : Clean t) (value : Word) : Clean (walkText skipZero table t value).1 := by
  induction table generalizing t value with
  | nil => exact ht
  | cons e es ih =>
      obtain ⟨he, hes⟩ := plainTable_tail h
      rw [walkText]
      split
      · refine ih hes ?_ _
        simp only [clean_append]
        exact ⟨ht, clean_barText t, he.clean⟩
      · exact ih hes ht value

/-- A walk that prints nothing explains nothing. -/
theorem walkText_nil {table : List FlagEntry} (h : plainTable table = true) {skipZero : Bool}
    {t : Text} {value : Word} (hnil : (walkText skipZero table t value).1 = []) :
    t = [] ∧ (walkText skipZero table t value).2 = value := by
  induction table generalizing t value with
  | nil => exact ⟨hnil, rfl⟩
  | cons e es ih =>
      obtain ⟨he, hes⟩ := plainTable_tail h
      rw [walkText] at hnil ⊢
      split at hnil
      · have hsplit := (ih hes hnil).1
        simp only [List.append_eq_nil_iff] at hsplit
        exact absurd hsplit.2.2 he.ne_nil
      · rename_i hmiss
        rw [if_neg hmiss]
        exact ih hes hnil

theorem walkRestText_plain {table : List FlagEntry} (h : plainTable table = true)
    (skipZero : Bool) {t : Text} (ht : Clean t) {value : Word} (hne : t ≠ [] ∨ value ≠ 0) :
    Plain (walkRestText skipZero table t value) := by
  refine ⟨?_, fun hnil => ?_⟩
  · unfold walkRestText
    simp only [clean_append]
    refine ⟨walkText_clean h skipZero ht value, ?_⟩
    split
    · exact clean_append.mpr ⟨clean_barText _, clean_hex0x _⟩
    · exact clean_nil
  · simp only [walkRestText, List.append_eq_nil_iff] at hnil
    obtain ⟨htnil, hrest⟩ := walkText_nil h hnil.1
    rcases hne with hne | hne
    · exact hne htnil
    · have hsecond := hnil.2
      rw [hrest, if_pos hne, List.append_eq_nil_iff] at hsecond
      exact (plain_hex0x _).ne_nil hsecond.2

theorem flagsText_plain {zero : String} {table : List FlagEntry} (hz : Plain (lit zero))
    (h : plainTable table = true) (value : Word) : Plain (flagsText zero table value) := by
  unfold flagsText
  split
  · exact hz
  · exact walkRestText_plain h false clean_nil (Or.inr ‹_›)

theorem formatFlags_plain {zero : String} {table : List FlagEntry} (hz : Plain (lit zero))
    (h : plainTable table = true) (value : Word) : PrintsPlain (formatFlags zero table value) :=
  ⟨_, formatFlags_prints zero table value, flagsText_plain hz h value⟩

theorem formatFlagsOrHex_plain {table : List FlagEntry} (h : plainTable table = true)
    (value : Word) : PrintsPlain (formatFlagsOrHex table value) := by
  refine ⟨_, formatFlagsOrHex_prints table value, ?_, ?_⟩
  · unfold flagsOrHexText
    simp only [clean_append]
    refine ⟨walkText_clean h true clean_nil value, ?_⟩
    split
    · exact clean_append.mpr ⟨clean_barText _, clean_hex0x _⟩
    · exact clean_nil
  · intro hnil
    simp only [flagsOrHexText, List.append_eq_nil_iff] at hnil
    have hsecond := hnil.2
    rw [if_pos (Or.inl hnil.1), List.append_eq_nil_iff] at hsecond
    exact (plain_hex0x _).ne_nil hsecond.2

theorem formatAtFlagsWalk_plain {bit200Name : Option String}
    (hn : ∀ name, bit200Name = some name → Plain (lit name)) (value : Word) :
    PrintsPlain (formatAtFlagsWalk bit200Name value) := by
  refine ⟨_, formatAtFlagsWalk_prints bit200Name value, ?_⟩
  have htable : plainTable atFlagTable = true := by with_unfolding_all decide
  unfold atFlagsText
  split
  · with_unfolding_all decide
  · rename_i hv
    split
    · rename_i name
      have hname := hn name rfl
      split
      · exact walkRestText_plain htable false hname.clean (Or.inl hname.ne_nil)
      · exact walkRestText_plain htable false clean_nil (Or.inr hv)
    · exact walkRestText_plain htable false clean_nil (Or.inr hv)

/-! ## Enumerations -/

theorem enumText_plain {table : List FlagEntry} (h : plainTable table = true) (value : Word) :
    Plain (enumText table value) := by
  unfold enumText
  split
  · rename_i e he
    exact plain_of_mem h (List.mem_of_find?_eq_some he)
  · exact plain_hex0x _

theorem formatEnum_plain {table : List FlagEntry} (h : plainTable table = true) (value : Word) :
    PrintsPlain (formatEnum table value) :=
  ⟨_, formatEnum_prints table value, enumText_plain h value⟩

theorem formatEnumFlags_plain {table flags : List FlagEntry} (h : plainTable table = true)
    (hf : plainTable flags = true) (value : Word) :
    PrintsPlain (formatEnumFlags table flags value) := by
  refine ⟨_, formatEnumFlags_prints table flags value, (enumText_plain h _).append ?_⟩
  intro b hb
  obtain ⟨e, he, hb⟩ := List.mem_flatMap.mp hb
  split at hb
  · rcases List.mem_append.mp hb with hb | hb
    · exact (by with_unfolding_all decide : Clean (lit "|")) b hb
    · exact (plain_of_mem hf he).clean b hb
  · exact absurd hb List.not_mem_nil

/-! ## Signals and the others -/

section Host

variable {host : Host} (hh : host.CleanNames)

include hh

theorem exitSignalText_clean (exitSignal : Word) : Clean (exitSignalText host exitSignal) := by
  unfold exitSignalText
  split
  · rename_i name hn
    exact clean_append.mpr ⟨by with_unfolding_all decide, hh.sigabbrev _ _ hn⟩
  · exact clean_dec _

theorem cloneFlagsText_plain (flags exitSignal : Word) :
    Plain (cloneFlagsText host flags exitSignal) := by
  have htable : plainTable cloneFlagTable = true := by with_unfolding_all decide
  have hbody : Clean ((walkText false cloneFlagTable [] flags).1 ++ if exitSignal ≠ 0 then
      barText (walkText false cloneFlagTable [] flags).1 ++ exitSignalText host exitSignal
      else []) := by
    refine clean_append.mpr ⟨walkText_clean htable false clean_nil flags, ?_⟩
    split
    · exact clean_append.mpr ⟨clean_barText _, exitSignalText_clean hh exitSignal⟩
    · exact clean_nil
  rw [cloneFlagsText]
  by_cases hne : ((walkText false cloneFlagTable [] flags).1 ++ if exitSignal ≠ 0 then
      barText (walkText false cloneFlagTable [] flags).1 ++ exitSignalText host exitSignal
      else []) = []
  · rw [if_pos hne]
    with_unfolding_all decide
  · rw [if_neg hne]
    refine Plain.append ⟨hbody, hne⟩ ?_
    split
    · exact clean_append.mpr ⟨by with_unfolding_all decide, clean_hex0x _⟩
    · exact clean_nil

theorem signalArgText_plain (value : Word) : Plain (signalArgText host value) := by
  unfold signalArgText
  dsimp only
  split
  · with_unfolding_all decide
  · split
    · rename_i name hn
      exact Plain.append (by with_unfolding_all decide) (hh.sigabbrev _ _ hn)
    · exact plain_decInt _

end Host

theorem ioctlRequestText_plain (value : Word) : Plain (ioctlRequestText value) := by
  have htable : plainTable ioctlRequestTable = true := by with_unfolding_all decide
  have hdir : ∀ dir, Clean (lit (iocDirName dir)) := by
    intro dir
    unfold iocDirName
    split <;> with_unfolding_all decide
  unfold ioctlRequestText
  split
  · rename_i e he
    exact plain_of_mem htable (List.mem_of_find?_eq_some he)
  · simp only [List.append_assoc]
    refine Plain.append (by with_unfolding_all decide) ?_
    simp only [clean_append, clean_hex, clean_dec, true_and]
    exact ⟨hdir _, by with_unfolding_all decide⟩

theorem fileModeText_plain (value : Word) : Plain (fileModeText value) := by
  unfold fileModeText
  split
  · with_unfolding_all decide
  · exact Plain.append (by with_unfolding_all decide) (clean_oct _)

theorem formatOpenMode_plain (flags mode : Word) : PrintsPlain (formatOpenMode flags mode) := by
  unfold formatOpenMode
  split
  · exact printsPlain_snprintf (fileModeText_plain mode)
  · exact printsPlain_snprintf (plain_hex0x _)

theorem rusageWhoText_plain (value : Word) : Plain (rusageWhoText value) := by
  unfold rusageWhoText
  dsimp only
  split_ifs
  · with_unfolding_all decide
  · with_unfolding_all decide
  · with_unfolding_all decide
  · exact plain_hex0x _

theorem rlimValueText_plain (v : Nat) : Plain (rlimValueText v) := by
  unfold rlimValueText
  split
  · with_unfolding_all decide
  · exact plain_dec v

theorem formatOpenFlags_plain (flags : Word) : PrintsPlain (formatOpenFlags flags) := by
  have htable : plainTable openFlagTable = true := by with_unfolding_all decide
  have hmode : Plain (lit (accmodeName flags)) := by
    unfold accmodeName
    split_ifs <;> with_unfolding_all decide
  exact ⟨_, formatOpenFlags_prints flags,
    walkRestText_plain htable true hmode.clean (Or.inl hmode.ne_nil)⟩

end MiniStrace
