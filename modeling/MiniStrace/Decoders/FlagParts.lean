/-
  Decoders/FlagParts.lean --- what the texts of the flag decoders stand for.

  THE WALK, WITHOUT TEXT.  `hits` are the entries a walk over a table prints and
  `leftover` the bits it leaves unexplained.  The words of the hits and the leftover
  share no bit and together are the value: an entry is printed only when all of its bits
  are still there, and takes them away.  This holds for every table, whatever entries
  overlap.

  THE TEXT.  Each text is the list of the names of the hits, with the leftover in hex at
  the end.  A reader needs names that are told apart from each other and from a hex
  numeral and that hold no bar; that is checked for every table.
-/
import MiniStrace.Decoders.Plain
import MiniStrace.Lib.Parts

set_option autoImplicit false

namespace MiniStrace

open CLib OutBuf

/-! ## The walk on words -/

/-- The entries a walk prints. -/
def hits (skipZero : Bool) : List FlagEntry → Word → List FlagEntry
  | [], _ => []
  | e :: es, remaining =>
      if e.hit skipZero remaining then e :: hits skipZero es (remaining &&& ~~~e.value)
      else hits skipZero es remaining

/-- The bits a walk leaves unexplained. -/
def leftover (skipZero : Bool) : List FlagEntry → Word → Word
  | [], remaining => remaining
  | e :: es, remaining =>
      if e.hit skipZero remaining then leftover skipZero es (remaining &&& ~~~e.value)
      else leftover skipZero es remaining

theorem FlagEntry.and_of_hit {skipZero : Bool} {e : FlagEntry} {v : Word}
    (h : e.hit skipZero v = true) : v &&& e.value = e.value := by
  rw [FlagEntry.hit, Bool.and_eq_true, beq_iff_eq] at h
  exact h.2

theorem hits_subset (skipZero : Bool) (table : List FlagEntry) (v : Word) :
    ∀ e ∈ hits skipZero table v, e ∈ table := by
  induction table generalizing v with
  | nil => simp [hits]
  | cons e es ih =>
      intro e' he'
      rw [hits] at he'
      split at he'
      · rcases List.mem_cons.mp he' with rfl | he'
        · exact List.mem_cons_self
        · exact List.mem_cons_of_mem _ (ih _ e' he')
      · exact List.mem_cons_of_mem _ (ih _ e' he')

/-- Words below `v` without the bits of `u` share no bit with `u`. -/
theorem and_eq_zero_of_below {u v x : Word} (h : (v &&& ~~~u) &&& x = x) : u &&& x = 0 := by
  rw [← h]
  ext i hi
  simp only [BitVec.getElem_and, BitVec.getElem_not]
  cases u[i] <;> simp

theorem below_of_below {u v x : Word} (h : (v &&& ~~~u) &&& x = x) : v &&& x = x := by
  rw [← h]
  ext i hi
  simp only [BitVec.getElem_and, BitVec.getElem_not]
  cases v[i] <;> simp

theorem or_without {u v : Word} (h : v &&& u = u) : u ||| (v &&& ~~~u) = v := by
  have hbit : ∀ i (hi : i < 64), u[i] = true → v[i] = true := by
    intro i hi hu
    have := congrArg (fun z : Word => z[i]) h
    simp only [BitVec.getElem_and, hu, Bool.and_true] at this
    exact this
  ext i hi
  simp only [BitVec.getElem_or, BitVec.getElem_and, BitVec.getElem_not]
  cases hu : u[i]
  · simp
  · simp [hbit i hi hu]

/-- Every hit, and the leftover, is a part of the value. -/
theorem walk_below (skipZero : Bool) (table : List FlagEntry) (v : Word) :
    (∀ e ∈ hits skipZero table v, v &&& e.value = e.value) ∧
      v &&& leftover skipZero table v = leftover skipZero table v := by
  induction table generalizing v with
  | nil => simp [hits, leftover]
  | cons e es ih =>
      rw [hits, leftover]
      split
      · rename_i hhit
        obtain ⟨hmem, hrest⟩ := ih (v &&& ~~~e.value)
        refine ⟨fun e' he' => ?_, below_of_below hrest⟩
        rcases List.mem_cons.mp he' with rfl | he'
        · exact FlagEntry.and_of_hit hhit
        · exact below_of_below (hmem e' he')
      · exact ih v

/-- The words of the hits and the leftover. -/
def walkWords (skipZero : Bool) (table : List FlagEntry) (v : Word) : List Word :=
  (hits skipZero table v).map (·.value) ++ [leftover skipZero table v]

/-- A walk loses nothing and counts nothing twice. -/
theorem walkWords_spec (skipZero : Bool) (table : List FlagEntry) (v : Word) :
    orAll (walkWords skipZero table v) = v ∧ Apart (walkWords skipZero table v) := by
  induction table generalizing v with
  | nil => simp [walkWords, hits, leftover, Apart]
  | cons e es ih =>
      unfold walkWords
      rw [hits, leftover]
      split
      · rename_i hhit
        obtain ⟨hor, hapart⟩ := ih (v &&& ~~~e.value)
        obtain ⟨hmem, hrest⟩ := walk_below skipZero es (v &&& ~~~e.value)
        refine ⟨?_, List.pairwise_cons.mpr ⟨fun x hx => ?_, hapart⟩⟩
        · exact (congrArg (e.value ||| ·) hor).trans (or_without (FlagEntry.and_of_hit hhit))
        · rcases List.mem_append.mp hx with hx | hx
          · obtain ⟨e', he', rfl⟩ := List.mem_map.mp hx
            exact and_eq_zero_of_below (hmem e' he')
          · rw [List.mem_singleton.mp hx]
            exact and_eq_zero_of_below hrest
      · exact ih v

/-! ## The parts of a text -/

/-- The names of the entries. -/
def entryNames (es : List FlagEntry) : List Text := es.map fun e => lit e.name

theorem lit_bar : lit "|" = [0x7c] := by with_unfolding_all decide

theorem barText_joinBars (parts : List Text) :
    barText (joinBars parts) = if joinBars parts = [] then [] else [0x7c] := by
  rw [barText, lit_bar]

/-- Every part is there to be seen. -/
def Solid (parts : List Text) : Prop := ∀ p ∈ parts, p ≠ []

theorem Solid.append {ps qs : List Text} (hp : Solid ps) (hq : Solid qs) : Solid (ps ++ qs) := by
  intro p h
  rcases List.mem_append.mp h with h | h
  · exact hp p h
  · exact hq p h

theorem solid_singleton {p : Text} (h : p ≠ []) : Solid [p] := by
  intro q hq
  rw [List.mem_singleton.mp hq]
  exact h

theorem joinBars_snoc {parts : List Text} (h : Solid parts) (part : Text) :
    joinBars (parts ++ [part]) = joinBars parts ++ (barText (joinBars parts) ++ part) := by
  rw [joinBars_concat h, barText_joinBars]

theorem walkText_parts {table : List FlagEntry} (h : plainTable table = true) (skipZero : Bool)
    (parts : List Text) (hs : Solid parts) (v : Word) :
    walkText skipZero table (joinBars parts) v =
      (joinBars (parts ++ entryNames (hits skipZero table v)), leftover skipZero table v) := by
  induction table generalizing parts v with
  | nil => simp [walkText, hits, leftover, entryNames]
  | cons e es ih =>
      obtain ⟨he, hes⟩ := plainTable_tail h
      rw [walkText, hits, leftover]
      split
      · rw [← joinBars_snoc hs, ih hes _ (hs.append (solid_singleton he.ne_nil))]
        simp [entryNames]
      · exact ih hes parts hs v

theorem entryNames_solid {table : List FlagEntry} (h : plainTable table = true) {es : List FlagEntry}
    (hes : ∀ e ∈ es, e ∈ table) : Solid (entryNames es) := by
  intro p hp
  obtain ⟨e, he, rfl⟩ := List.mem_map.mp hp
  exact (plain_of_mem h (hes e he)).ne_nil

/-- The leftover in hex, when there is one. -/
def restParts (v : Word) : List Text := if v ≠ 0 then [hex0x v.toNat] else []

theorem walkRestText_parts {table : List FlagEntry} (h : plainTable table = true) (skipZero : Bool)
    (parts : List Text) (hs : Solid parts) (v : Word) :
    walkRestText skipZero table (joinBars parts) v =
      joinBars (parts ++ entryNames (hits skipZero table v) ++
        restParts (leftover skipZero table v)) := by
  have hsolid := hs.append (entryNames_solid h (hits_subset skipZero table v))
  rw [walkRestText, walkText_parts h skipZero parts hs, restParts]
  dsimp only
  split
  · rw [joinBars_snoc hsolid]
  · rw [List.append_nil, List.append_nil]

/-- The text of a value that is not zero is made of the walk's parts. -/
theorem flagsText_parts {table : List FlagEntry} (h : plainTable table = true) (zero : String)
    {v : Word} (hv : v ≠ 0) : flagsText zero table v =
      joinBars (entryNames (hits false table v) ++ restParts (leftover false table v)) := by
  rw [flagsText, if_neg hv]
  exact walkRestText_parts h false [] (by simp [Solid]) v

/-! ## Reading the parts -/

/-- The value a reader of the table gives to a part: that of a name, or a hex numeral. -/
def partValue (names : List FlagEntry) (part : Text) : Option Word :=
  match names.find? (fun e => lit e.name == part) with
  | some e => some e.value
  | none => (readHex part).map (BitVec.ofNat 64)

/-- The names can be told apart: they differ from each other, none starts like a hex
numeral, and none holds a bar. -/
def readable (names : List FlagEntry) : Bool :=
  decide ((names.map fun e => lit e.name).Nodup) &&
    names.all fun e => !(lit "0x").isPrefixOf (lit e.name) && !(lit e.name).contains 0x7c

section Readable

variable {names : List FlagEntry} (h : readable names = true)

include h

theorem partValue_name {e : FlagEntry} (he : e ∈ names) : partValue names (lit e.name) = some e.value := by
  rw [readable, Bool.and_eq_true, decide_eq_true_eq] at h
  cases hfind : names.find? (fun e' => lit e'.name == lit e.name) with
  | none =>
      have := List.find?_eq_none.mp hfind e he
      simp at this
  | some e' =>
      have hname : lit e'.name = lit e.name := by simpa using List.find?_some hfind
      have heq : e' = e := List.inj_on_of_nodup_map h.1 (List.mem_of_find?_eq_some hfind) he hname
      rw [partValue, hfind, heq]

theorem partValue_hex (v : Word) : partValue names (hex0x v.toNat) = some v := by
  rw [readable, Bool.and_eq_true, List.all_eq_true] at h
  have hnone : names.find? (fun e => lit e.name == hex0x v.toNat) = none := by
    refine List.find?_eq_none.mpr fun e he hname => ?_
    have hpre := h.2 e he
    rw [Bool.and_eq_true] at hpre
    rw [beq_iff_eq.mp hname, hex0x] at hpre
    have hyes : (lit "0x").isPrefixOf (lit "0x" ++ hex v.toNat) = true :=
      List.isPrefixOf_iff_prefix.mpr (List.prefix_append _ _)
    rw [hyes] at hpre
    exact absurd hpre.1 (by decide)
  rw [partValue, hnone]
  simp [readHex_hex0x]

theorem bar_not_mem_name {e : FlagEntry} (he : e ∈ names) : 0x7c ∉ lit e.name := by
  rw [readable, Bool.and_eq_true, List.all_eq_true] at h
  have hbar := (Bool.and_eq_true _ _ ▸ h.2 e he).2
  simpa using hbar

end Readable

theorem bar_not_mem_hex0x (n : Nat) : 0x7c ∉ hex0x n :=
  not_mem_hex0x (by with_unfolding_all decide) (by decide) n

/-- A list of parts with the words they stand for. -/
structure Spells (names : List FlagEntry) (parts : List Text) (vs : List Word) : Prop where
  values : parts.map (partValue names) = vs.map some
  noBar : ∀ p ∈ parts, 0x7c ∉ p

namespace Spells

variable {names : List FlagEntry}

theorem append {ps qs : List Text} {vs us : List Word} (hp : Spells names ps vs)
    (hq : Spells names qs us) : Spells names (ps ++ qs) (vs ++ us) := by
  refine ⟨by rw [List.map_append, List.map_append, hp.values, hq.values], fun p hmem => ?_⟩
  rcases List.mem_append.mp hmem with hmem | hmem
  · exact hp.noBar p hmem
  · exact hq.noBar p hmem

theorem entries (h : readable names = true) (es : List FlagEntry) (hes : ∀ e ∈ es, e ∈ names) :
    Spells names (entryNames es) (es.map (·.value)) := by
  refine ⟨?_, fun p hp => ?_⟩
  · rw [entryNames, List.map_map, List.map_map]
    exact List.map_congr_left fun e he => partValue_name h (hes e he)
  · obtain ⟨e, he, rfl⟩ := List.mem_map.mp hp
    exact bar_not_mem_name h (hes e he)

theorem hex (h : readable names = true) (v : Word) : Spells names [hex0x v.toNat] [v] := by
  refine ⟨by simp [partValue_hex h], fun p hp => ?_⟩
  rw [List.mem_singleton.mp hp]
  exact bar_not_mem_hex0x _

theorem partValues {parts : List Text} {vs : List Word} (hs : Spells names parts vs)
    (hne : parts ≠ []) : PartValues (partValue names) (joinBars parts) vs :=
  partValues_joinBars hne hs.noBar hs.values

theorem readsAs {parts : List Text} {vs : List Word} (hs : Spells names parts vs)
    (hne : parts ≠ []) {v : Word} (hor : orAll vs = v) (hapart : Apart vs) :
    ReadsAs (partValue names) (joinBars parts) v :=
  ⟨vs, hs.partValues hne, hor, hapart⟩

end Spells

theorem apart_concat_zero {vs : List Word} (h : Apart (vs ++ [0])) : Apart vs :=
  (List.pairwise_append.mp h).1

/-- The names of the hits and the leftover spell the words of a walk, a leftover of zero
apart. -/
theorem walk_spells {names : List FlagEntry} (h : readable names = true) (table : List FlagEntry)
    (hsub : ∀ e ∈ table, e ∈ names) (skipZero : Bool) (v : Word) :
    ∃ vs, Spells names (entryNames (hits skipZero table v) ++
      restParts (leftover skipZero table v)) vs ∧ orAll vs = v ∧ Apart vs := by
  obtain ⟨hor, hapart⟩ := walkWords_spec skipZero table v
  have hentries := Spells.entries h _ fun e he => hsub e (hits_subset skipZero table v e he)
  unfold walkWords at hor hapart
  by_cases hzero : leftover skipZero table v = 0
  · refine ⟨(hits skipZero table v).map (·.value), ?_, ?_, ?_⟩
    · rw [restParts, if_neg (not_not_intro hzero), List.append_nil]
      exact hentries
    · rw [hzero, orAll_append] at hor
      simpa using hor
    · rw [hzero] at hapart
      exact apart_concat_zero hapart
  · refine ⟨_, ?_, hor, hapart⟩
    rw [restParts, if_pos hzero]
    exact hentries.append (Spells.hex h _)

end MiniStrace
