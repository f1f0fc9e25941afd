/-
  Decoders/Lossless.lean --- the flag decoders lose no bit.

  THE FAMILY.  Three shapes cover all members: a walk whose zero has a name, a walk that
  falls back to hex, and an enumeration with flag bits on top.  Each shape reads back as
  its value for every table that can be read, and the tables are checked one by one.

  ONE EXCEPTION HERE.  `format_open_flags` takes the two bits of the access mode away before
  its walk, and has no name for the value 3.
-/
import MiniStrace.Decoders.FlagParts

set_option autoImplicit false

namespace MiniStrace

open CLib OutBuf

/-! ## The shapes -/

/-- A walk whose zero has a name. -/
theorem flagsText_readsAs {zero : String} {table : List FlagEntry}
    (h : readable (⟨0, zero⟩ :: table) = true) (hp : plainTable table = true) (v : Word) :
    ReadsAs (partValue (⟨0, zero⟩ :: table)) (flagsText zero table v) v := by
  by_cases hv : v = 0
  · have hs := Spells.entries h [⟨0, zero⟩] (by simp)
    have hone : joinBars (entryNames [⟨0, zero⟩]) = lit zero := by simp [joinBars, entryNames]
    rw [flagsText, if_pos hv, ← hone]
    exact hs.readsAs (by simp [entryNames]) (by simp [hv]) (by simp [Apart])
  · obtain ⟨vs, hs, hor, hapart⟩ := walk_spells h table
      (fun e he => List.mem_cons_of_mem _ he) false v
    rw [flagsText_parts hp zero hv]
    refine hs.readsAs (fun hnil => hv ?_) hor hapart
    have hvs := hs.values
    rw [hnil, List.map_nil, eq_comm, List.map_eq_nil_iff] at hvs
    rw [← hor, hvs]
    rfl

/-- A walk that falls back to hex. -/
theorem flagsOrHexText_readsAs {table : List FlagEntry} (h : readable table = true)
    (hp : plainTable table = true) (v : Word) :
    ReadsAs (partValue table) (flagsOrHexText table v) v := by
  have hwalk := walkText_parts hp true [] (by simp [Solid]) v
  rw [List.nil_append, show joinBars [] = [] from rfl] at hwalk
  have hsolid := entryNames_solid hp (hits_subset true table v)
  have hentries := Spells.entries h _ (hits_subset true table v)
  obtain ⟨hor, hapart⟩ := walkWords_spec true table v
  rw [flagsOrHexText, hwalk]
  dsimp only
  split
  · rw [← joinBars_snoc hsolid]
    exact (hentries.append (Spells.hex h _)).readsAs (by simp) hor hapart
  · rename_i hno
    rw [not_or, not_not] at hno
    rw [List.append_nil]
    unfold walkWords at hor hapart
    rw [hno.2] at hor hapart
    refine hentries.readsAs (fun hnil => hno.1 ?_) ?_ (apart_concat_zero hapart)
    · rw [hnil]
      rfl
    · rw [orAll_append] at hor
      simpa using hor

/-- `format_at_flags_walk`: the class's own name for bit 0x200 is one more entry. -/
theorem atFlagsText_readsAs (bit200Name : Option String)
    (h : readable (⟨0, "0"⟩ :: (bit200Name.map fun name => ⟨0x200, name⟩).toList ++ atFlagTable) = true)
    (hn : ∀ name, bit200Name = some name → lit name ≠ []) (v : Word) :
    ReadsAs (partValue (⟨0, "0"⟩ :: (bit200Name.map fun name => ⟨0x200, name⟩).toList ++ atFlagTable))
      (atFlagsText bit200Name v) v := by
  have hp : plainTable atFlagTable = true := by with_unfolding_all decide
  unfold atFlagsText
  split
  · rename_i hv
    have hs := Spells.entries h [⟨0, "0"⟩] (by simp)
    have hone : joinBars (entryNames [⟨0, "0"⟩]) = lit "0" := by simp [joinBars, entryNames]
    rw [← hone]
    exact hs.readsAs (by simp [entryNames]) (by simp [hv]) (by simp [Apart])
  · rename_i hv
    -- a walk from nothing, which both branches without the name end in
    have hplainWalk : ReadsAs (partValue (⟨0, "0"⟩ ::
        (bit200Name.map fun name => ⟨0x200, name⟩).toList ++ atFlagTable))
        (walkRestText false atFlagTable [] v) v := by
      obtain ⟨vs, hs, hor, hapart⟩ := walk_spells h atFlagTable
        (fun e he => List.mem_append_right _ he) false v
      have hparts := walkRestText_parts hp false [] (by simp [Solid]) v
      rw [List.nil_append, show joinBars [] = [] from rfl] at hparts
      rw [hparts]
      refine hs.readsAs (fun hnil => hv ?_) hor hapart
      have hvs := hs.values
      rw [hnil, List.map_nil, eq_comm, List.map_eq_nil_iff] at hvs
      rw [← hor, hvs]
      rfl
    cases bit200Name with
    | none => exact hplainWalk
    | some name =>
        dsimp only
        split
        · rename_i hbit
          have hname := hn name rfl
          have hmem : (⟨0x200, name⟩ : FlagEntry) ∈ ⟨0, "0"⟩ ::
              (Option.map (fun name => (⟨0x200, name⟩ : FlagEntry)) (some name)).toList ++
                atFlagTable := by simp
          obtain ⟨vs, hs, hor, hapart⟩ := walk_spells h atFlagTable
            (fun e he => List.mem_append_right _ he) false (v &&& ~~~0x200)
          have hparts := walkRestText_parts hp false [lit name]
            (solid_singleton hname) (v &&& ~~~0x200)
          rw [show joinBars [lit name] = lit name by simp [joinBars], List.append_assoc] at hparts
          rw [hparts]
          have hfirst := Spells.entries h [⟨0x200, name⟩]
            (fun e he => (List.mem_singleton.mp he) ▸ hmem)
          have hin : v &&& 0x200 = 0x200 := by
            have htwo : (0x200 : Word) = BitVec.twoPow 64 9 := by decide
            rw [htwo] at hbit ⊢
            rw [BitVec.and_twoPow] at hbit ⊢
            split at hbit
            · rename_i hb
              rw [if_pos hb]
            · exact absurd rfl hbit
          refine (hfirst.append hs).readsAs (by simp [entryNames]) ?_ ?_
          · rw [List.map_cons, List.map_nil, List.cons_append, List.nil_append, orAll_cons, hor]
            exact or_without hin
          · refine List.pairwise_cons.mpr ⟨fun x hx => ?_, hapart⟩
            refine and_eq_zero_of_below (v := v) ?_
            rw [← hor]
            exact orAll_and_of_mem hx
        · exact hplainWalk

/-! ## Enumerations with flag bits -/

/-- The entry is a single bit. -/
def bitEntry (e : FlagEntry) : Bool := (List.range 64).any fun k => e.value == BitVec.twoPow 64 k

theorem and_bitEntry {e : FlagEntry} (h : bitEntry e = true) (v : Word) :
    v &&& e.value = 0 ∨ v &&& e.value = e.value := by
  obtain ⟨k, -, hk⟩ := List.any_eq_true.mp h
  rw [beq_iff_eq.mp hk, BitVec.and_twoPow]
  split
  · exact Or.inr rfl
  · exact Or.inl rfl

theorem and_not_of_and_eq_zero {u v : Word} (h : v &&& u = 0) : v &&& ~~~u = v := by
  ext i hi
  have hbit := congrArg (fun z : Word => z[i]) h
  simp only [BitVec.getElem_and] at hbit
  simp only [BitVec.getElem_and, BitVec.getElem_not]
  cases hu : u[i] <;> cases hv : v[i] <;> simp_all

theorem without_and {u v x : Word} (h : u &&& x = 0) : (v &&& ~~~u) &&& x = v &&& x := by
  ext i hi
  have hbit := congrArg (fun z : Word => z[i]) h
  simp only [BitVec.getElem_and] at hbit
  simp only [BitVec.getElem_and, BitVec.getElem_not]
  cases hu : u[i] <;> cases hx : x[i] <;> simp_all

/-- Peeling single bits off is a walk over them. -/
theorem peel_eq_walk {flags : List FlagEntry} (hbits : flags.all bitEntry = true)
    (hapart : Apart (flags.map (·.value))) (v : Word) :
    flags.filter (fun e => decide (v &&& e.value ≠ 0)) = hits false flags v ∧
      flags.foldl (fun v e => v &&& ~~~e.value) v = leftover false flags v := by
  induction flags generalizing v with
  | nil => exact ⟨rfl, rfl⟩
  | cons e es ih =>
      rw [List.all_cons, Bool.and_eq_true] at hbits
      obtain ⟨hhead, htail⟩ := List.pairwise_cons.mp hapart
      have ⟨hfilter, hfold⟩ := ih hbits.2 htail (v &&& ~~~e.value)
      -- the bits of the other flags are not touched
      have hsame : es.filter (fun e' => decide ((v &&& ~~~e.value) &&& e'.value ≠ 0)) =
          es.filter (fun e' => decide (v &&& e'.value ≠ 0)) :=
        List.filter_congr fun e' he' => by
          rw [without_and (hhead e'.value (List.mem_map_of_mem he'))]
      rw [hsame] at hfilter
      rw [hits, leftover, List.filter_cons, List.foldl_cons, hfilter, hfold]
      have hzero : e.value ≠ 0#64 := by
        obtain ⟨k, hk, heq⟩ := List.any_eq_true.mp hbits.1
        rw [beq_iff_eq.mp heq]
        intro hz
        have := congrArg (fun z : Word => z.getLsbD k) hz
        simp [List.mem_range.mp hk] at this
      rcases and_bitEntry hbits.1 v with hno | hyes
      · have hmiss : e.hit false v = false := by simp [FlagEntry.hit, hno, Ne.symm hzero]
        rw [if_neg (by simp [hno]), hmiss, and_not_of_and_eq_zero hno]
        exact ⟨rfl, rfl⟩
      · have hhit : e.hit false v = true := by simp [FlagEntry.hit, hyes]
        rw [if_pos (by simp [hyes, hzero]), hhit]
        exact ⟨rfl, rfl⟩

theorem enumFlagsText_parts (table flags : List FlagEntry) (v : Word) :
    enumFlagsText table flags v =
      joinBars (enumText table (flags.foldl (fun v e => v &&& ~~~e.value) v) ::
        entryNames (flags.filter fun e => decide (v &&& e.value ≠ 0))) := by
  have hflags : ∀ fs : List FlagEntry,
      (fs.flatMap fun e => if v &&& e.value ≠ 0 then lit "|" ++ lit e.name else []) =
        (entryNames (fs.filter fun e => decide (v &&& e.value ≠ 0))).flatMap fun p => 0x7c :: p := by
    intro fs
    induction fs with
    | nil => rfl
    | cons e es ih =>
        rw [List.flatMap_cons, ih, List.filter_cons]
        by_cases hv : v &&& e.value ≠ 0
        · rw [if_pos hv, if_pos (decide_eq_true hv), lit_bar]
          simp [entryNames]
        · rw [if_neg hv, if_neg (by simpa using hv), List.nil_append]
  rw [joinBars_cons, enumFlagsText, hflags]

/-- The looked-up part of an enumeration stands for the value that was looked up. -/
theorem enumText_spells {names table : List FlagEntry} (h : readable names = true)
    (hsub : ∀ e ∈ table, e ∈ names) (v : Word) : Spells names [enumText table v] [v] := by
  unfold enumText
  split
  · rename_i e hfind
    have hval : e.value = v := by simpa using List.find?_some hfind
    have hs := Spells.entries h [e] fun e' he' =>
      (List.mem_singleton.mp he') ▸ hsub e (List.mem_of_find?_eq_some hfind)
    rw [← hval]
    exact hs
  · exact Spells.hex h v

theorem enumFlagsText_readsAs {table flags : List FlagEntry}
    (h : readable (table ++ flags) = true) (hbits : flags.all bitEntry = true)
    (hapart : Apart (flags.map (·.value))) (v : Word) :
    ReadsAs (partValue (table ++ flags)) (enumFlagsText table flags v) v := by
  obtain ⟨hfilter, hfold⟩ := peel_eq_walk hbits hapart v
  obtain ⟨hor, hwords⟩ := walkWords_spec false flags v
  have hbase : Spells (table ++ flags) [enumText table (leftover false flags v)]
      [leftover false flags v] := enumText_spells h (fun e he => List.mem_append_left _ he) _
  have hflags := Spells.entries h (hits false flags v)
    fun e he => List.mem_append_right _ (hits_subset false flags v e he)
  rw [enumFlagsText_parts, hfilter, hfold]
  unfold walkWords at hor hwords
  rw [orAll_append] at hor
  obtain ⟨hhits, -, hcross⟩ := List.pairwise_append.mp hwords
  refine (hbase.append hflags).readsAs (by simp) ?_ ?_
  · rw [orAll_append, BitVec.or_comm]
    exact hor
  · refine List.pairwise_cons.mpr ⟨fun x hx => ?_, hhits⟩
    rw [BitVec.and_comm]
    exact hcross x hx _ (List.mem_singleton.mpr rfl)

/-! ## The family -/

/-- The decoders of flag words, `format_open_flags` and `format_clone_flags_value` apart. -/
inductive FlagDecoder where
  | protFlags | mapFlags | mountFlags | accessMode | msgFlags | statxMask | atFlags | unlinkatFlags
  | faccessatFlags | pipe2Flags | getrandomFlags | flockOp | renameat2Flags | mremapFlags
  | memfdFlags | eventfdFlags | wait4Options | waitidOptions | sigactionFlagsValue
  | epollEventsValue | pollEventsValue | socketType | futexOp | schedPolicy
  deriving DecidableEq, Repr

namespace FlagDecoder

/-- The width of the value. -/
def width : FlagDecoder → Nat
  | epollEventsValue => 32
  | pollEventsValue => 16
  | _ => 64

/-- The function a member stands for, called on a value. -/
def run : (d : FlagDecoder) → BitVec d.width → OutBuf → OutBuf
  | protFlags => formatProtFlags
  | mapFlags => formatMapFlags
  | mountFlags => formatMountFlags
  | accessMode => formatAccessMode
  | msgFlags => formatMsgFlags
  | statxMask => formatStatxMask
  | atFlags => formatAtFlags
  | unlinkatFlags => formatUnlinkatFlags
  | faccessatFlags => formatFaccessatFlags
  | pipe2Flags => formatPipe2Flags
  | getrandomFlags => formatGetrandomFlags
  | flockOp => formatFlockOp
  | renameat2Flags => formatRenameat2Flags
  | mremapFlags => formatMremapFlags
  | memfdFlags => formatMemfdFlags
  | eventfdFlags => formatEventfdFlags
  | wait4Options => formatWait4Options
  | waitidOptions => formatWaitidOptions
  | sigactionFlagsValue => formatSigactionFlagsValue
  | epollEventsValue => formatEpollEventsValue
  | pollEventsValue => formatPollEventsValue
  | socketType => formatSocketType
  | futexOp => formatFutexOp
  | schedPolicy => formatSchedPolicy

/-- The names a reader of the text knows. -/
def names : FlagDecoder → List FlagEntry
  | protFlags => ⟨0, "PROT_NONE"⟩ :: protFlagTable
  | mapFlags => mapFlagTable
  | mountFlags => mountFlagTable
  | accessMode => ⟨0, "F_OK"⟩ :: accessModeTable
  | msgFlags => ⟨0, "0"⟩ :: msgFlagTable
  | statxMask => statxMaskTable
  | atFlags => ⟨0, "0"⟩ :: atFlagTable
  | unlinkatFlags => ⟨0, "0"⟩ :: ⟨0x200, "AT_REMOVEDIR"⟩ :: atFlagTable
  | faccessatFlags => ⟨0, "0"⟩ :: ⟨0x200, "AT_EACCESS"⟩ :: atFlagTable
  | pipe2Flags => ⟨0, "0"⟩ :: pipe2FlagTable
  | getrandomFlags => ⟨0, "0"⟩ :: getrandomFlagTable
  | flockOp => ⟨0, "0"⟩ :: flockOpTable
  | renameat2Flags => ⟨0, "0"⟩ :: renameat2FlagTable
  | mremapFlags => ⟨0, "0"⟩ :: mremapFlagTable
  | memfdFlags => ⟨0, "0"⟩ :: memfdFlagTable
  | eventfdFlags => ⟨0, "0"⟩ :: eventfdFlagTable
  | wait4Options => ⟨0, "0"⟩ :: wait4OptionsTable
  | waitidOptions => ⟨0, "0"⟩ :: waitidOptionsTable
  | sigactionFlagsValue => ⟨0, "0"⟩ :: sigactionFlagTable
  | epollEventsValue => ⟨0, "0"⟩ :: epollEventsFlagTable
  | pollEventsValue => ⟨0, "0"⟩ :: pollEventsFlagTable
  | socketType => socketTypeTable ++ [⟨0x80000, "SOCK_CLOEXEC"⟩, ⟨0x800, "SOCK_NONBLOCK"⟩]
  | futexOp => futexCmdTable ++ [⟨0x80, "FUTEX_PRIVATE_FLAG"⟩, ⟨0x100, "FUTEX_CLOCK_REALTIME"⟩]
  | schedPolicy => schedPolicyTable ++ [⟨0x40000000, "SCHED_RESET_ON_FORK"⟩]

/-- The text a member prints, given room. -/
def text : (d : FlagDecoder) → BitVec d.width → Text
  | protFlags => flagsText "PROT_NONE" protFlagTable
  | mapFlags => flagsOrHexText mapFlagTable
  | mountFlags => flagsOrHexText mountFlagTable
  | accessMode => flagsText "F_OK" accessModeTable
  | msgFlags => flagsText "0" msgFlagTable
  | statxMask => flagsOrHexText statxMaskTable
  | atFlags => atFlagsText none
  | unlinkatFlags => atFlagsText (some "AT_REMOVEDIR")
  | faccessatFlags => atFlagsText (some "AT_EACCESS")
  | pipe2Flags => flagsText "0" pipe2FlagTable
  | getrandomFlags => flagsText "0" getrandomFlagTable
  | flockOp => flagsText "0" flockOpTable
  | renameat2Flags => flagsText "0" renameat2FlagTable
  | mremapFlags => flagsText "0" mremapFlagTable
  | memfdFlags => flagsText "0" memfdFlagTable
  | eventfdFlags => flagsText "0" eventfdFlagTable
  | wait4Options => flagsText "0" wait4OptionsTable
  | waitidOptions => flagsText "0" waitidOptionsTable
  | sigactionFlagsValue => flagsText "0" sigactionFlagTable
  | epollEventsValue => fun v => flagsText "0" epollEventsFlagTable (v.setWidth 64)
  | pollEventsValue => fun v => flagsText "0" pollEventsFlagTable (v.setWidth 64)
  | socketType => enumFlagsText socketTypeTable
      [⟨0x80000, "SOCK_CLOEXEC"⟩, ⟨0x800, "SOCK_NONBLOCK"⟩]
  | futexOp => enumFlagsText futexCmdTable
      [⟨0x80, "FUTEX_PRIVATE_FLAG"⟩, ⟨0x100, "FUTEX_CLOCK_REALTIME"⟩]
  | schedPolicy => enumFlagsText schedPolicyTable [⟨0x40000000, "SCHED_RESET_ON_FORK"⟩]

theorem width_le (d : FlagDecoder) : d.width ≤ 64 := by
  cases d <;> decide

theorem names_readable (d : FlagDecoder) : readable d.names = true := by
  cases d <;> with_unfolding_all decide

theorem names_plain (d : FlagDecoder) : plainTable d.names = true := by
  cases d <;> with_unfolding_all decide

theorem run_prints (d : FlagDecoder) (value : BitVec d.width) : Prints (d.run value) (d.text value) := by
  cases d with
  | mapFlags | mountFlags | statxMask => exact formatFlagsOrHex_prints _ value
  | atFlags => exact formatAtFlagsWalk_prints none value
  | unlinkatFlags => exact formatAtFlagsWalk_prints (some "AT_REMOVEDIR") value
  | faccessatFlags => exact formatAtFlagsWalk_prints (some "AT_EACCESS") value
  | socketType | futexOp | schedPolicy => exact formatEnumFlags_prints _ _ value
  | epollEventsValue | pollEventsValue => exact formatFlags_prints _ _ (BitVec.setWidth 64 value)
  | protFlags | accessMode | msgFlags | pipe2Flags | getrandomFlags | flockOp | renameat2Flags
  | mremapFlags | memfdFlags | eventfdFlags | wait4Options | waitidOptions | sigactionFlagsValue =>
      exact formatFlags_prints _ _ value

theorem text_readsAs (d : FlagDecoder) (value : BitVec d.width) :
    ReadsAs (partValue d.names) (d.text value) (value.setWidth 64) := by
  have hread := d.names_readable
  have hplain := d.names_plain
  have hwhole : ∀ {names : List FlagEntry} {t : Text} (v : Word), ReadsAs (partValue names) t v →
      ReadsAs (partValue names) t (v.setWidth 64) := fun v h => by rwa [BitVec.setWidth_eq]
  have hname : ∀ bit : String, lit bit ≠ [] → ∀ name, some bit = some name → lit name ≠ [] :=
    fun bit hbit name h => Option.some.inj h ▸ hbit
  cases d with
  | mapFlags | mountFlags | statxMask => exact hwhole value (flagsOrHexText_readsAs hread hplain value)
  | atFlags => exact hwhole value (atFlagsText_readsAs none hread (by simp) value)
  | unlinkatFlags =>
      exact hwhole value (atFlagsText_readsAs (some "AT_REMOVEDIR") hread
        (hname _ (by with_unfolding_all decide)) value)
  | faccessatFlags =>
      exact hwhole value (atFlagsText_readsAs (some "AT_EACCESS") hread
        (hname _ (by with_unfolding_all decide)) value)
  | socketType | futexOp | schedPolicy =>
      exact hwhole value (enumFlagsText_readsAs hread (by decide) (by simp [Apart]) value)
  | epollEventsValue | pollEventsValue =>
      exact flagsText_readsAs hread (plainTable_tail hplain).2 (BitVec.setWidth 64 value)
  | protFlags | accessMode | msgFlags | pipe2Flags | getrandomFlags | flockOp | renameat2Flags
  | mremapFlags | memfdFlags | eventfdFlags | wait4Options | waitidOptions | sigactionFlagsValue =>
      exact hwhole value (flagsText_readsAs hread (plainTable_tail hplain).2 value)

theorem text_injective (d : FlagDecoder) : Function.Injective d.text := by
  intro v u h
  have hv := d.text_readsAs v
  rw [h] at hv
  have heq := congrArg BitVec.toNat (hv.unique (d.text_readsAs u))
  have hwidth : 2 ^ d.width ≤ 2 ^ 64 := Nat.pow_le_pow_right (by decide) d.width_le
  simp only [BitVec.toNat_setWidth] at heq
  rw [Nat.mod_eq_of_lt (lt_of_lt_of_le v.isLt hwidth),
    Nat.mod_eq_of_lt (lt_of_lt_of_le u.isLt hwidth)] at heq
  exact BitVec.eq_of_toNat_eq heq

end FlagDecoder

/-- Each of these decoders prints a text whose parts share no bit and together are the
value; no text is empty, and no two values have the same text. -/
theorem flagDecoders_lossless (d : FlagDecoder) :
    (∀ value : BitVec d.width, Prints (d.run value) (d.text value) ∧ d.text value ≠ [] ∧
      ReadsAs (partValue d.names) (d.text value) (value.setWidth 64)) ∧
    Function.Injective d.text := by
  refine ⟨fun value => ⟨d.run_prints value, fun hnil => ?_, d.text_readsAs value⟩, d.text_injective⟩
  -- an empty text has one part, which is no name and no numeral
  obtain ⟨vs, hvs, -, -⟩ := d.text_readsAs value
  rw [hnil, PartValues] at hvs
  have hpart : partValue d.names [] = none := by
    have hnone : d.names.find? (fun e => lit e.name == []) = none := by
      refine List.find?_eq_none.mpr fun e he hname => ?_
      exact (plain_of_mem d.names_plain he).ne_nil (beq_iff_eq.mp hname)
    have hhex : readHex [] = none := by with_unfolding_all decide
    rw [partValue, hnone, hhex]
    rfl
  cases vs with
  | nil => simp at hvs
  | cons u us => simp [hpart] at hvs

/-! ## `format_open_flags` -/

/-- The names a reader of the flags of `open` knows. -/
def openNames : List FlagEntry :=
  [⟨0, "O_RDONLY"⟩, ⟨1, "O_WRONLY"⟩, ⟨2, "O_RDWR"⟩] ++ openFlagTable

/-- The value the printed access mode stands for. -/
def accmodeValue (flags : Word) : Word :=
  if flags &&& 3 = 1 then 1 else if flags &&& 3 = 2 then 2 else 0

theorem openNames_readable : readable openNames = true := by with_unfolding_all decide

theorem accmode_spells (flags : Word) :
    Spells openNames [lit (accmodeName flags)] [accmodeValue flags] := by
  unfold accmodeName accmodeValue
  split_ifs
  · exact Spells.entries openNames_readable [⟨1, "O_WRONLY"⟩] (by simp [openNames])
  · exact Spells.entries openNames_readable [⟨2, "O_RDWR"⟩] (by simp [openNames])
  · exact Spells.entries openNames_readable [⟨0, "O_RDONLY"⟩] (by simp [openNames])

/-- The parts of the text: the access mode, the flags, the rest. -/
def openParts (flags : Word) : List Text :=
  lit (accmodeName flags) :: (entryNames (hits true openFlagTable (flags &&& ~~~3)) ++
    restParts (leftover true openFlagTable (flags &&& ~~~3)))

theorem openFlagsText_parts (flags : Word) : openFlagsText flags = joinBars (openParts flags) := by
  have hp : plainTable openFlagTable = true := by with_unfolding_all decide
  have hne : lit (accmodeName flags) ≠ [] := by
    unfold accmodeName
    split_ifs <;> with_unfolding_all decide
  have hparts := walkRestText_parts hp true [lit (accmodeName flags)] (solid_singleton hne)
    (flags &&& ~~~3)
  rw [show joinBars [lit (accmodeName flags)] = lit (accmodeName flags) by simp [joinBars]] at hparts
  rw [openFlagsText, hparts, openParts, List.append_assoc]
  rfl

/-- The words of the parts: they share no bit, and are the flags with the access mode
replaced by the value of its name. -/
theorem openParts_spells (flags : Word) :
    ∃ vs, Spells openNames (openParts flags) vs ∧ Apart vs ∧
      orAll vs = accmodeValue flags ||| (flags &&& ~~~3) := by
  obtain ⟨vs, hs, hor, hapart⟩ := walk_spells openNames_readable openFlagTable
    (fun e he => List.mem_append_right _ he) true (flags &&& ~~~3)
  refine ⟨accmodeValue flags :: vs, (accmode_spells flags).append hs, ?_, ?_⟩
  · refine List.pairwise_cons.mpr ⟨fun x hx => ?_, hapart⟩
    have hbelow : (flags &&& ~~~3) &&& x = x := by
      rw [← hor]
      exact orAll_and_of_mem hx
    have hmode : 3 &&& x = 0 := and_eq_zero_of_below hbelow
    have hin : accmodeValue flags &&& 3 = accmodeValue flags := by
      unfold accmodeValue
      split_ifs <;> decide
    rw [← hin, BitVec.and_assoc, hmode]
    exact BitVec.and_zero
  · rw [orAll_cons, hor]

theorem accmodeValue_or (flags : Word) :
    accmodeValue flags ||| (flags &&& ~~~3) = flags ↔ flags &&& 3 ≠ 3 := by
  have hsplit : (flags &&& 3) ||| (flags &&& ~~~3) = flags := by
    rw [← BitVec.and_or_distrib_left]
    have : (3 : Word) ||| ~~~3 = BitVec.allOnes 64 := by decide
    rw [this, BitVec.and_allOnes]
  have hmode : flags &&& 3 = 0 ∨ flags &&& 3 = 1 ∨ flags &&& 3 = 2 ∨ flags &&& 3 = 3 := by
    have hlt : (flags &&& 3).toNat < 4 := by
      rw [BitVec.toNat_and]
      exact lt_of_le_of_lt Nat.and_le_right (by decide)
    have hcases : ∀ x : Word, x.toNat < 4 → x = 0 ∨ x = 1 ∨ x = 2 ∨ x = 3 := by
      intro x hx
      have hx' : x = BitVec.ofNat 64 x.toNat := by simp
      rw [hx']
      generalize x.toNat = n at hx
      interval_cases n <;> decide
    exact hcases _ hlt
  unfold accmodeValue
  rcases hmode with h | h | h | h
  · rw [h] at hsplit ⊢
    simpa using hsplit
  · rw [h] at hsplit ⊢
    simpa using hsplit
  · rw [h] at hsplit ⊢
    simpa using hsplit
  · -- both bits are set: the mode is printed as if it were 0
    rw [h]
    refine iff_of_false (fun heq => ?_) (by simp)
    have hand := congrArg (· &&& (3 : Word)) heq
    simp only [h] at hand
    have hor : (0 : Word) ||| (flags &&& ~~~3) = flags &&& ~~~3 := BitVec.zero_or
    have hz : (flags &&& ~~~3) &&& 3 = 0 := by
      rw [BitVec.and_comm]
      exact and_eq_zero_of_below (BitVec.and_self)
    rw [if_neg (by decide), if_neg (by decide), hor, hz] at hand
    exact absurd hand (by decide)

theorem name_not_mem_rest {names : List FlagEntry} (h : readable names = true) {e : FlagEntry}
    (he : e ∈ names) (v : Word) : lit e.name ∉ restParts v := by
  unfold restParts
  split
  · rw [List.mem_singleton]
    intro heq
    have hpre := (Bool.and_eq_true _ _ ▸
      List.all_eq_true.mp (Bool.and_eq_true _ _ ▸ h).2 e he).1
    rw [heq, hex0x] at hpre
    have hyes : (lit "0x").isPrefixOf (lit "0x" ++ hex v.toNat) = true :=
      List.isPrefixOf_iff_prefix.mpr (List.prefix_append _ _)
    rw [hyes] at hpre
    exact absurd hpre (by decide)
  · exact List.not_mem_nil

/-- A flag is printed exactly when its entry is hit. -/
theorem mem_openParts {flags : Word} {e : FlagEntry} (he : e ∈ openFlagTable) :
    lit e.name ∈ openParts flags ↔ e ∈ hits true openFlagTable (flags &&& ~~~3) := by
  have hnodup : (openNames.map fun e => lit e.name).Nodup :=
    of_decide_eq_true (Bool.and_eq_true _ _ ▸ openNames_readable).1
  have hin : e ∈ openNames := List.mem_append_right _ he
  rw [openParts, List.mem_cons, List.mem_append]
  constructor
  · rintro (hmode | hhit | hrest)
    · have hno : ∀ e ∈ openFlagTable, ∀ name ∈ ["O_RDONLY", "O_WRONLY", "O_RDWR"],
          lit e.name ≠ lit name := by with_unfolding_all decide
      refine absurd hmode (hno e he _ ?_)
      unfold accmodeName
      split_ifs <;> simp
    · obtain ⟨e', he', hname⟩ := List.mem_map.mp hhit
      have hin' : e' ∈ openNames :=
        List.mem_append_right _ (hits_subset true openFlagTable _ e' he')
      rw [← List.inj_on_of_nodup_map hnodup hin' hin hname]
      exact he'
    · exact absurd hrest (name_not_mem_rest openNames_readable hin _)
  · exact fun hhit => Or.inr (Or.inl (List.mem_map_of_mem hhit))

/-- A composite entry that comes before the entry for a subset of its bits keeps that
entry from being printed. -/
theorem hits_composite (before after : List FlagEntry) (whole sub : FlagEntry)
    (hwhole : whole.value ≠ 0) (hsub : whole.value &&& sub.value ≠ 0) (hne : sub ≠ whole)
    (hbefore : ∀ e ∈ before, e.value &&& whole.value = 0 ∧ sub ≠ e) {v : Word}
    (hv : v &&& whole.value = whole.value) :
    whole ∈ hits true (before ++ whole :: after) v ∧
      sub ∉ hits true (before ++ whole :: after) v := by
  induction before generalizing v with
  | nil =>
      have hhit : whole.hit true v = true := by simpa [FlagEntry.hit, hv] using hwhole
      rw [List.nil_append, hits, if_pos hhit]
      refine ⟨List.mem_cons_self, fun hmem => ?_⟩
      rcases List.mem_cons.mp hmem with heq | hmem
      · exact hne heq
      · exact hsub (and_eq_zero_of_below ((walk_below true after _).1 sub hmem))
  | cons e es ih =>
      have hes : ∀ e' ∈ es, e'.value &&& whole.value = 0 ∧ sub ≠ e' :=
        fun e' he' => hbefore e' (List.mem_cons_of_mem e he')
      obtain ⟨hapart, hother⟩ := hbefore e List.mem_cons_self
      rw [List.cons_append, hits]
      split
      · obtain ⟨hin, hout⟩ := ih hes (v := v &&& ~~~e.value) (by rw [without_and hapart, hv])
        refine ⟨List.mem_cons_of_mem e hin, fun hmem => ?_⟩
        rcases List.mem_cons.mp hmem with heq | hmem
        · exact hother heq
        · exact hout hmem
      · exact ih hes hv

/-- What decoding the text of `format_open_flags` should give: the values of the parts add
up to the flags, no bit is counted twice, and the two composite flags are printed as
themselves. -/
structure OpenRoundTrip (flags : Word) : Prop where
  sum : ∃ vs, PartValues (partValue openNames) (openFlagsText flags) vs ∧
    (vs.map BitVec.toNat).sum = flags.toNat
  once : ∀ vs, PartValues (partValue openNames) (openFlagsText flags) vs → Apart vs
  tmpfile : flags &&& 0x410000 = 0x410000 →
    lit "O_TMPFILE" ∈ (openFlagsText flags).splitOn 0x7c ∧
      lit "O_DIRECTORY" ∉ (openFlagsText flags).splitOn 0x7c
  sync : flags &&& 0x101000 = 0x101000 →
    lit "O_SYNC" ∈ (openFlagsText flags).splitOn 0x7c ∧
      lit "O_DSYNC" ∉ (openFlagsText flags).splitOn 0x7c

/-- The flags of `open` are read back exactly when the access mode is not 3, for which the
text has no name. -/
theorem openFlags_roundTrip_iff (flags : Word) :
    Prints (formatOpenFlags flags) (openFlagsText flags) ∧
      (OpenRoundTrip flags ↔ flags &&& 3 ≠ 3) := by
  refine ⟨formatOpenFlags_prints flags, ?_⟩
  obtain ⟨vs, hs, hapart, hor⟩ := openParts_spells flags
  have hvalues : PartValues (partValue openNames) (openFlagsText flags) vs := by
    rw [openFlagsText_parts]
    exact hs.partValues (by simp [openParts])
  have hsplit : (openFlagsText flags).splitOn 0x7c = openParts flags := by
    rw [openFlagsText_parts]
    exact splitOn_joinBars (by simp [openParts]) hs.noBar
  have hsum : (vs.map BitVec.toNat).sum = flags.toNat ↔ flags &&& 3 ≠ 3 := by
    rw [← hapart.toNat_orAll, hor, BitVec.toNat_inj]
    exact accmodeValue_or flags
  constructor
  · intro h
    obtain ⟨us, hus, heq⟩ := h.sum
    rw [hus.unique hvalues] at heq
    exact hsum.mp heq
  · intro h
    have hkeep : ∀ {x : Word}, 3 &&& x = 0 → flags &&& x = x → (flags &&& ~~~3) &&& x = x :=
      fun h3 hx => by rw [without_and h3, hx]
    refine ⟨⟨vs, hvalues, hsum.mpr h⟩, fun us hus => hus.unique hvalues ▸ hapart, fun htmp => ?_,
      fun hsync => ?_⟩
    · have hcomp := hits_composite [] openFlagTable.tail ⟨0x410000, "O_TMPFILE"⟩
        ⟨0x10000, "O_DIRECTORY"⟩ (by decide) (by decide) (by simp) (by simp) (hkeep (by decide) htmp)
      rw [hsplit]
      exact ⟨(mem_openParts (e := ⟨0x410000, "O_TMPFILE"⟩) (by simp [openFlagTable])).mpr hcomp.1,
        fun hmem => hcomp.2
          ((mem_openParts (e := ⟨0x10000, "O_DIRECTORY"⟩) (by simp [openFlagTable])).mp hmem)⟩
    · have hcomp := hits_composite [⟨0x410000, "O_TMPFILE"⟩] openFlagTable.tail.tail
        ⟨0x101000, "O_SYNC"⟩ ⟨0x1000, "O_DSYNC"⟩ (by decide) (by decide) (by simp) (by simp)
        (hkeep (by decide) hsync)
      rw [hsplit]
      exact ⟨(mem_openParts (e := ⟨0x101000, "O_SYNC"⟩) (by simp [openFlagTable])).mpr hcomp.1,
        fun hmem => hcomp.2
          ((mem_openParts (e := ⟨0x1000, "O_DSYNC"⟩) (by simp [openFlagTable])).mp hmem)⟩

/-- The access mode 3 is printed like the access mode 0. -/
theorem openFlags_accmode_lost :
    openFlagsText 3 = lit "O_RDONLY" ∧ openFlagsText 0 = lit "O_RDONLY" ∧
      PartValues (partValue openNames) (openFlagsText 3) [0] := by
  with_unfolding_all decide

end MiniStrace
