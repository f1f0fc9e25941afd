/-
  Decoders/Flags.lean --- the decoders of `decoders.c` that only look at a value.

  THREE FAMILIES.  An OR of flags is walked against a table, top to bottom: an entry
  is printed when all of its bits are still unexplained, and claims them.  An
  enumeration is looked up.  A few values are an enumeration with flag bits on top.
  Each family is one definition; its members are that definition applied to their
  table, and `format_open_flags`, `format_clone_flags_value` and
  `format_at_flags_walk`, which do something the others do not, have a body of their
  own.

  THE TEXT.  Every decoder has a text function that ignores the room left, and
  `Prints` says that the array shows that text at every size.
-/
import MiniStrace.Decoders.FlagTables

set_option autoImplicit false

namespace MiniStrace

open CLib OutBuf

/-! ## The walk over a table -/

/-- The separator `oi ? "|" : ""`. -/
def bar (out : OutBuf) : Text := if out.oi = 0 then [] else lit "|"

/-- All bits of the entry are still unexplained.  Some of the walks also skip entries
whose value is zero on this platform. -/
def FlagEntry.hit (skipZero : Bool) (e : FlagEntry) (remaining : Word) : Bool :=
  (!skipZero || e.value != 0) && remaining &&& e.value == e.value

/-- `for (i = 0; table[i].name != NULL && oi < out_size; i++)`; returns what is left
unexplained. -/
def walkFlags (skipZero : Bool) : List FlagEntry → OutBuf → Word → OutBuf × Word
  | [], out, remaining => (out, remaining)
  | e :: es, out, remaining =>
      if out.oi < out.size then
        if e.hit skipZero remaining then
          walkFlags skipZero es (out.snprintf (bar out ++ lit e.name)) (remaining &&& ~~~e.value)
        else walkFlags skipZero es out remaining
      else (out, remaining)

/-- `snprintf(out + oi, out_size - oi, "%s0x%llx", oi ? "|" : "", remaining)`, if there
is room. -/
def appendHex (out : OutBuf) (remaining : Word) : OutBuf :=
  out.append (bar out ++ hex0x remaining.toNat)

/-- The separator after the text `t`. -/
def barText (t : Text) : Text := if t = [] then [] else lit "|"

/-- The text of the walk, appended to `t`, and what is left unexplained. -/
def walkText (skipZero : Bool) : List FlagEntry → Text → Word → Text × Word
  | [], t, remaining => (t, remaining)
  | e :: es, t, remaining =>
      if e.hit skipZero remaining then
        walkText skipZero es (t ++ (barText t ++ lit e.name)) (remaining &&& ~~~e.value)
      else walkText skipZero es t remaining

theorem walkText_append (skipZero : Bool) (es : List FlagEntry) (t : Text) (remaining : Word) :
    ∃ s, (walkText skipZero es t remaining).1 = t ++ s := by
  induction es generalizing t remaining with
  | nil => exact ⟨[], (List.append_nil t).symm⟩
  | cons e es ih =>
      rw [walkText]
      split
      · obtain ⟨s, hs⟩ := ih (t ++ (barText t ++ lit e.name)) (remaining &&& ~~~e.value)
        exact ⟨barText t ++ lit e.name ++ s, by rw [hs, List.append_assoc]⟩
      · exact ih t remaining

section Walk

variable {init : Nat → Byte} {b : OutBuf} {t : Text}

theorem bar_eq (h : b.Shows init t) (hlt : b.oi < b.size) : bar b = barText t := by
  unfold bar barText
  simp only [h.oi_eq hlt, List.length_eq_zero_iff]

@[simp] theorem walkFlags_size (skipZero : Bool) (es : List FlagEntry) (b : OutBuf)
    (remaining : Word) : (walkFlags skipZero es b remaining).1.size = b.size := by
  induction es generalizing b remaining with
  | nil => rfl
  | cons e es ih =>
      rw [walkFlags]
      split_ifs
      · rw [ih, snprintf_size]
      · rw [ih]
      · rfl

/-- The walk in the array follows the walk over the text, and agrees with it on what
is left as long as there is room. -/
theorem walkFlags_renders (skipZero : Bool) (es : List FlagEntry) (remaining : Word)
    (h : b.Renders init t) :
    (walkFlags skipZero es b remaining).1.Renders init (walkText skipZero es t remaining).1 ∧
      ((walkFlags skipZero es b remaining).1.oi < b.size →
        (walkFlags skipZero es b remaining).2 = (walkText skipZero es t remaining).2) := by
  induction es generalizing b t remaining with
  | nil => exact ⟨h, fun _ => rfl⟩
  | cons e es ih =>
      by_cases hlt : b.oi < b.size
      · rw [walkFlags, if_pos hlt, walkText]
        split
        · have hnext := ih (remaining &&& ~~~e.value)
            (h.snprintf hlt.le (bar b ++ lit e.name))
          rw [bar_eq h.toShows hlt] at hnext ⊢
          rwa [snprintf_size] at hnext
        · exact ih remaining h
      · rw [walkFlags, if_neg hlt]
        obtain ⟨s, hs⟩ := walkText_append skipZero (e :: es) t remaining
        rw [hs]
        exact ⟨h.extend hlt s, fun hroom => absurd hroom hlt⟩

/-- The hex remainder in the array follows the one in the text. -/
theorem appendHex_renders (h : b.Renders init t) {remaining rest : Word} {c d : Prop}
    [Decidable c] [Decidable d] (hrest : b.oi < b.size → remaining = rest)
    (hcd : b.oi < b.size → (c ↔ d)) :
    (if c then appendHex b remaining else b).Renders init
      (t ++ if d then barText t ++ hex0x rest.toNat else []) := by
  by_cases hlt : b.oi < b.size
  · have hc := hcd hlt
    simp only [hc, appendHex, bar_eq h.toShows hlt, hrest hlt]
    exact h.append_if d _
  · have hno : (if c then appendHex b remaining else b) = b := by
      simp only [appendHex, OutBuf.append, if_neg hlt, ite_self]
    rw [hno]
    exact h.extend hlt _

theorem appendHex_size (b : OutBuf) (remaining : Word) : (appendHex b remaining).size = b.size :=
  append_size _ _

/-- The walk followed by what is left, in hex. -/
def walkRest (skipZero : Bool) (table : List FlagEntry) (out : OutBuf) (value : Word) : OutBuf :=
  let r := walkFlags skipZero table out value
  if r.2 ≠ 0 then appendHex r.1 r.2 else r.1

/-- The text of `walkRest`, appended to `t`. -/
def walkRestText (skipZero : Bool) (table : List FlagEntry) (t : Text) (value : Word) : Text :=
  let r := walkText skipZero table t value
  r.1 ++ if r.2 ≠ 0 then barText r.1 ++ hex0x r.2.toNat else []

theorem walkRest_renders (skipZero : Bool) (table : List FlagEntry) (value : Word)
    (h : b.Renders init t) :
    (walkRest skipZero table b value).Renders init (walkRestText skipZero table t value) := by
  obtain ⟨hr, hrest⟩ := walkFlags_renders skipZero table value h
  unfold walkRest walkRestText
  refine appendHex_renders hr ?_ ?_
  · rw [walkFlags_size]
    exact hrest
  · rw [walkFlags_size]
    intro hlt
    rw [hrest hlt]

@[simp] theorem walkRest_size (skipZero : Bool) (table : List FlagEntry) (b : OutBuf)
    (value : Word) : (walkRest skipZero table b value).size = b.size := by
  unfold walkRest
  dsimp only
  split
  · rw [appendHex_size, walkFlags_size]
  · rw [walkFlags_size]

end Walk

/-! ## Flags whose zero has a name -/

/-- The shape of `format_flag_table_value` and of the other walks that print the zero
value by a name of its own. -/
def formatFlags (zero : String) (table : List FlagEntry) (value : Word) (out : OutBuf) : OutBuf :=
  if value = 0 then out.snprintf (lit zero) else walkRest false table out value

/-- The text of `formatFlags`. -/
def flagsText (zero : String) (table : List FlagEntry) (value : Word) : Text :=
  if value = 0 then lit zero else walkRestText false table [] value

theorem formatFlags_prints (zero : String) (table : List FlagEntry) (value : Word) :
    Prints (formatFlags zero table value) (flagsText zero table value) := by
  unfold formatFlags flagsText
  split
  · exact prints_snprintf _
  · exact ⟨fun n init hn => walkRest_renders false table value (renders_new hn init),
      fun n init => walkRest_size false table _ value⟩

def formatProtFlags (value : Word) : OutBuf → OutBuf :=
  formatFlags "PROT_NONE" protFlagTable value

def formatAccessMode (value : Word) : OutBuf → OutBuf :=
  formatFlags "F_OK" accessModeTable value

def formatMsgFlags (value : Word) : OutBuf → OutBuf := formatFlags "0" msgFlagTable value

def formatSigactionFlagsValue (flags : Word) : OutBuf → OutBuf :=
  formatFlags "0" sigactionFlagTable flags

/-- `events` is a `uint32_t`. -/
def formatEpollEventsValue (events : BitVec 32) : OutBuf → OutBuf :=
  formatFlags "0" epollEventsFlagTable (events.setWidth 64)

/-- `events` is a `short`; the walk sees its bits as an `unsigned short`. -/
def formatPollEventsValue (events : BitVec 16) : OutBuf → OutBuf :=
  formatFlags "0" pollEventsFlagTable (events.setWidth 64)

def formatFlagTableValue (table : List FlagEntry) (value : Word) : OutBuf → OutBuf :=
  formatFlags "0" table value

def formatPipe2Flags (value : Word) : OutBuf → OutBuf := formatFlagTableValue pipe2FlagTable value

def formatGetrandomFlags (value : Word) : OutBuf → OutBuf :=
  formatFlagTableValue getrandomFlagTable value

def formatFlockOp (value : Word) : OutBuf → OutBuf := formatFlagTableValue flockOpTable value

def formatRenameat2Flags (value : Word) : OutBuf → OutBuf :=
  formatFlagTableValue renameat2FlagTable value

def formatMremapFlags (value : Word) : OutBuf → OutBuf :=
  formatFlagTableValue mremapFlagTable value

def formatMemfdFlags (value : Word) : OutBuf → OutBuf := formatFlagTableValue memfdFlagTable value

def formatEventfdFlags (value : Word) : OutBuf → OutBuf :=
  formatFlagTableValue eventfdFlagTable value

def formatWait4Options (value : Word) : OutBuf → OutBuf :=
  formatFlagTableValue wait4OptionsTable value

def formatWaitidOptions (value : Word) : OutBuf → OutBuf :=
  formatFlagTableValue waitidOptionsTable value

/-! ## Flags that fall back to hex -/

/-- The shape of `format_map_flags`: entries of value zero are skipped, and a value no
entry matched is printed whole. -/
def formatFlagsOrHex (table : List FlagEntry) (value : Word) (out : OutBuf) : OutBuf :=
  let r := walkFlags true table out value
  if r.1.oi = 0 ∨ r.2 ≠ 0 then appendHex r.1 r.2 else r.1

/-- The text of `formatFlagsOrHex`. -/
def flagsOrHexText (table : List FlagEntry) (value : Word) : Text :=
  let r := walkText true table [] value
  r.1 ++ if r.1 = [] ∨ r.2 ≠ 0 then barText r.1 ++ hex0x r.2.toNat else []

theorem formatFlagsOrHex_prints (table : List FlagEntry) (value : Word) :
    Prints (formatFlagsOrHex table value) (flagsOrHexText table value) := by
  unfold formatFlagsOrHex flagsOrHexText
  refine ⟨fun n init hn => ?_, fun n init => ?_⟩
  · obtain ⟨hr, hrest⟩ := walkFlags_renders true table value (renders_new hn init)
    refine appendHex_renders hr ?_ ?_
    · rw [walkFlags_size]
      exact hrest
    · intro hlt
      rw [hr.toShows.oi_eq hlt, List.length_eq_zero_iff]
      rw [walkFlags_size] at hlt
      rw [hrest hlt]
  · dsimp only
    split
    · rw [appendHex_size, walkFlags_size, new_size]
    · rw [walkFlags_size, new_size]

def formatMapFlags (value : Word) : OutBuf → OutBuf := formatFlagsOrHex mapFlagTable value

def formatMountFlags (value : Word) : OutBuf → OutBuf := formatFlagsOrHex mountFlagTable value

def formatStatxMask (value : Word) : OutBuf → OutBuf := formatFlagsOrHex statxMaskTable value

/-! ## `format_open_flags` -/

/-- The access mode is a two-bit value, not two flags. -/
def accmodeName (flags : Word) : String :=
  if flags &&& 3 = 1 then "O_WRONLY" else if flags &&& 3 = 2 then "O_RDWR" else "O_RDONLY"

/-- `format_open_flags`.  The access mode is printed first, so the separator of the
walk is always `|`. -/
def formatOpenFlags (flags : Word) (out : OutBuf) : OutBuf :=
  walkRest true openFlagTable (out.snprintf (lit (accmodeName flags))) (flags &&& ~~~3)

/-- The text of `format_open_flags`. -/
def openFlagsText (flags : Word) : Text :=
  walkRestText true openFlagTable (lit (accmodeName flags)) (flags &&& ~~~3)

theorem formatOpenFlags_prints (flags : Word) :
    Prints (formatOpenFlags flags) (openFlagsText flags) where
  renders := fun _ init hn => walkRest_renders true openFlagTable _
    ((renders_new hn init).snprintf (Nat.zero_le _) (lit (accmodeName flags)))
  size := fun _ _ => (walkRest_size true openFlagTable _ _).trans (snprintf_size _ _)

/-! ## `format_at_flags_walk` -/

/-- `format_at_flags_walk`: bit 0x200 has a different name for each class of
syscalls, or none. -/
def formatAtFlagsWalk (bit200Name : Option String) (value : Word) (out : OutBuf) : OutBuf :=
  if value = 0 then out.snprintf (lit "0")
  else match bit200Name with
    | some name =>
        if value &&& 0x200 ≠ 0 ∧ out.oi < out.size then
          walkRest false atFlagTable (out.snprintf (lit name)) (value &&& ~~~0x200)
        else walkRest false atFlagTable out value
    | none => walkRest false atFlagTable out value

/-- The text of `format_at_flags_walk`. -/
def atFlagsText (bit200Name : Option String) (value : Word) : Text :=
  if value = 0 then lit "0"
  else match bit200Name with
    | some name =>
        if value &&& 0x200 ≠ 0 then
          walkRestText false atFlagTable (lit name) (value &&& ~~~0x200)
        else walkRestText false atFlagTable [] value
    | none => walkRestText false atFlagTable [] value

theorem formatAtFlagsWalk_prints (bit200Name : Option String) (value : Word) :
    Prints (formatAtFlagsWalk bit200Name value) (atFlagsText bit200Name value) := by
  unfold formatAtFlagsWalk atFlagsText
  split
  · exact prints_snprintf _
  · cases bit200Name with
    | none =>
        exact ⟨fun n init hn => walkRest_renders false atFlagTable value (renders_new hn init),
          fun n init => walkRest_size false atFlagTable _ value⟩
    | some name =>
        refine ⟨fun n init hn => ?_, fun n init => ?_⟩
        · have h₀ := renders_new hn init
          dsimp only
          by_cases hbit : value &&& 0x200 ≠ 0
          · rw [if_pos hbit]
            by_cases hlt : (new n init).oi < (new n init).size
            · rw [if_pos ⟨hbit, hlt⟩]
              exact walkRest_renders false atFlagTable _ (h₀.snprintf hlt.le (lit name))
            · -- an array without cells shows any text
              rw [if_neg (fun hc => hlt hc.2)]
              have h₁ := walkRest_renders false atFlagTable value h₀
              have hzero : (walkRest false atFlagTable (new n init) value).size = 0 := by
                rw [walkRest_size]
                simpa using hlt
              exact ⟨h₁.toShows.of_size_zero hzero _, h₁.bounded⟩
          · rw [if_neg hbit, if_neg (fun hc => hbit hc.1)]
            exact walkRest_renders false atFlagTable value h₀
        · dsimp only
          split
          · rw [walkRest_size, snprintf_size, new_size]
          · rw [walkRest_size, new_size]

def formatAtFlags (value : Word) : OutBuf → OutBuf := formatAtFlagsWalk none value

def formatUnlinkatFlags (value : Word) : OutBuf → OutBuf :=
  formatAtFlagsWalk (some "AT_REMOVEDIR") value

def formatFaccessatFlags (value : Word) : OutBuf → OutBuf :=
  formatAtFlagsWalk (some "AT_EACCESS") value

/-! ## Enumerations -/

/-- A value looked up in a table, in hex when it is not there. -/
def formatEnum (table : List FlagEntry) (value : Word) (out : OutBuf) : OutBuf :=
  match table.find? (·.value == value) with
  | some e => out.snprintf (lit e.name)
  | none => out.snprintf (hex0x value.toNat)

/-- The text of `formatEnum`. -/
def enumText (table : List FlagEntry) (value : Word) : Text :=
  match table.find? (·.value == value) with
  | some e => lit e.name
  | none => hex0x value.toNat

theorem formatEnum_eq (table : List FlagEntry) (value : Word) :
    formatEnum table value = (·.snprintf (enumText table value)) := by
  funext out
  unfold formatEnum enumText
  cases table.find? (·.value == value) <;> rfl

theorem formatEnum_prints (table : List FlagEntry) (value : Word) :
    Prints (formatEnum table value) (enumText table value) := by
  rw [formatEnum_eq]
  exact prints_snprintf _

def formatSocketDomain (value : Word) : OutBuf → OutBuf := formatEnum socketDomainTable value

def formatLseekWhence (value : Word) : OutBuf → OutBuf := formatEnum lseekWhenceTable value

def formatFcntlCmd (value : Word) : OutBuf → OutBuf := formatEnum fcntlCmdTable value

def formatSigprocmaskHow (value : Word) : OutBuf → OutBuf := formatEnum sigprocmaskHowTable value

def formatClockid (value : Word) : OutBuf → OutBuf := formatEnum clockidTable value

def formatEpollOp (value : Word) : OutBuf → OutBuf := formatEnum epollOpTable value

def formatSockoptLevel (value : Word) : OutBuf → OutBuf := formatEnum sockoptLevelTable value

def formatPrctlOption (value : Word) : OutBuf → OutBuf := formatEnum prctlOptionTable value

def formatMadviseAdvice (value : Word) : OutBuf → OutBuf := formatEnum madviseAdviceTable value

def formatWaitidIdtype (value : Word) : OutBuf → OutBuf := formatEnum waitidIdtypeTable value

def formatRlimitResource (value : Word) : OutBuf → OutBuf := formatEnum rlimitResourceTable value

/-- The option names of a level; a level without a table has none. -/
def sockoptOptnameTable (level : Word) : List FlagEntry :=
  if level = 1 then sockoptOptnameSocketTable
  else if level = 6 then sockoptOptnameTcpTable
  else []

/-- `format_sockopt_optname`: the level decides which table is asked. -/
def formatSockoptOptname (level optname : Word) : OutBuf → OutBuf :=
  formatEnum (sockoptOptnameTable level) optname

/-! ## Enumerations with flag bits on top -/

/-- `format_socket_type`, `format_futex_op` and `format_sched_policy`: the bits of
`flags` are peeled off, the rest is looked up, and the flags that were set follow. -/
def formatEnumFlags (table flags : List FlagEntry) (value : Word) (out : OutBuf) : OutBuf :=
  let base := flags.foldl (fun v e => v &&& ~~~e.value) value
  flags.foldl
    (fun out e => if value &&& e.value ≠ 0 then out.append (lit "|" ++ lit e.name) else out)
    (formatEnum table base out)

/-- The text of `formatEnumFlags`. -/
def enumFlagsText (table flags : List FlagEntry) (value : Word) : Text :=
  let base := flags.foldl (fun v e => v &&& ~~~e.value) value
  enumText table base ++
    flags.flatMap fun e => if value &&& e.value ≠ 0 then lit "|" ++ lit e.name else []

theorem foldl_append_renders {init : Nat → Byte} (flags : List FlagEntry) (value : Word)
    {b : OutBuf} {t : Text} (h : b.Renders init t) :
    (flags.foldl (fun out e =>
        if value &&& e.value ≠ 0 then out.append (lit "|" ++ lit e.name) else out) b).Renders init
      (t ++ flags.flatMap fun e => if value &&& e.value ≠ 0 then lit "|" ++ lit e.name else []) := by
  induction flags generalizing b t with
  | nil => simpa using h
  | cons e es ih =>
      rw [List.foldl_cons, List.flatMap_cons, ← List.append_assoc]
      exact ih (h.append_if _ _)

theorem foldl_append_size (flags : List FlagEntry) (value : Word) (b : OutBuf) :
    (flags.foldl (fun out e =>
      if value &&& e.value ≠ 0 then out.append (lit "|" ++ lit e.name) else out) b).size
      = b.size := by
  induction flags generalizing b with
  | nil => rfl
  | cons e es ih =>
      rw [List.foldl_cons, ih]
      split
      · exact append_size _ _
      · rfl

theorem formatEnumFlags_prints (table flags : List FlagEntry) (value : Word) :
    Prints (formatEnumFlags table flags value) (enumFlagsText table flags value) := by
  unfold formatEnumFlags enumFlagsText
  refine ⟨fun n init hn => ?_, fun n init => ?_⟩
  · exact foldl_append_renders flags value ((formatEnum_prints table _).renders n init hn)
  · dsimp only
    rw [foldl_append_size, (formatEnum_prints table _).size]

def formatSocketType (value : Word) : OutBuf → OutBuf :=
  formatEnumFlags socketTypeTable [⟨0x80000, "SOCK_CLOEXEC"⟩, ⟨0x800, "SOCK_NONBLOCK"⟩] value

def formatFutexOp (value : Word) : OutBuf → OutBuf :=
  formatEnumFlags futexCmdTable
    [⟨0x80, "FUTEX_PRIVATE_FLAG"⟩, ⟨0x100, "FUTEX_CLOCK_REALTIME"⟩] value

def formatSchedPolicy (value : Word) : OutBuf → OutBuf :=
  formatEnumFlags schedPolicyTable [⟨0x40000000, "SCHED_RESET_ON_FORK"⟩] value

/-! ## `format_clone_flags_value` -/

/-- The text of a non-zero exit signal. -/
def exitSignalText (host : Host) (exitSignal : Word) : Text :=
  match host.sigabbrev (signed 32 (exitSignal.toNat % 2 ^ 32)) with
  | some name => lit "SIG" ++ name
  | none => dec exitSignal.toNat

theorem lit_sig : lit "SIG" = [0x53, 0x49, 0x47] := by with_unfolding_all decide

/-- `format_clone_flags_value`. -/
def formatCloneFlagsValue (host : Host) (flags exitSignal : Word) (out : OutBuf) : OutBuf :=
  let r := walkFlags false cloneFlagTable out flags
  let out := if exitSignal ≠ 0 then
      r.1.append (bar r.1 ++ exitSignalText host exitSignal) else r.1
  if out.oi = 0 then out.snprintf (lit "0")
  else if r.2 ≠ 0 then out.append (lit "|" ++ hex0x r.2.toNat) else out

/-- The text of `format_clone_flags_value`. -/
def cloneFlagsText (host : Host) (flags exitSignal : Word) : Text :=
  let r := walkText false cloneFlagTable [] flags
  let t := r.1 ++ if exitSignal ≠ 0 then barText r.1 ++ exitSignalText host exitSignal else []
  if t = [] then lit "0"
  else t ++ if r.2 ≠ 0 then lit "|" ++ hex0x r.2.toNat else []

/-- `format_clone_flags`: the low byte is the exit signal. -/
def formatCloneFlags (host : Host) (value : Word) : OutBuf → OutBuf :=
  formatCloneFlagsValue host (value &&& ~~~0xff) (value &&& 0xff)

section Clone

variable {init : Nat → Byte} {b : OutBuf} {t : Text}

/-- The exit signal in the array follows the one in the text. -/
theorem appendSignal_renders (h : b.Renders init t) (c : Prop) [Decidable c] (s : Text) :
    (if c then b.append (bar b ++ s) else b).Renders init
      (t ++ if c then barText t ++ s else []) := by
  by_cases hlt : b.oi < b.size
  · rw [bar_eq h.toShows hlt]
    exact h.append_if c _
  · have hno : (if c then b.append (bar b ++ s) else b) = b := by
      simp only [OutBuf.append, if_neg hlt, ite_self]
    rw [hno]
    exact h.extend hlt _

/-- The end of `format_clone_flags_value`: an empty text becomes `0`. -/
theorem zeroOrRest_renders (h : b.Renders init t) {remaining rest : Word}
    (hrest : b.oi < b.size → remaining = rest) :
    (if b.oi = 0 then b.snprintf (lit "0")
      else if remaining ≠ 0 then b.append (lit "|" ++ hex0x remaining.toNat) else b).Renders init
      (if t = [] then lit "0"
        else t ++ if rest ≠ 0 then lit "|" ++ hex0x rest.toNat else []) := by
  by_cases hlt : b.oi < b.size
  · have hoi := h.toShows.oi_eq hlt
    rw [hrest hlt]
    by_cases ht : t = []
    · rw [if_pos ht, if_pos (by rw [hoi, ht]; rfl)]
      have := h.snprintf hlt.le (lit "0")
      rwa [ht, List.nil_append] at this
    · rw [if_neg ht, if_neg (by rw [hoi]; exact mt List.length_eq_zero_iff.mp ht)]
      exact h.append_if _ _
  · by_cases h0 : b.oi = 0
    · -- an array without cells shows any text
      rw [if_pos h0]
      have h₁ := h.snprintf (by omega) (lit "0")
      exact ⟨h₁.toShows.of_size_zero (by rw [snprintf_size]; omega) _, h₁.bounded⟩
    · rw [if_neg h0]
      have hno : (if remaining ≠ 0 then b.append (lit "|" ++ hex0x remaining.toNat) else b)
          = b := by
        simp only [OutBuf.append, if_neg hlt, ite_self]
      rw [hno]
      by_cases ht : t = []
      · have hzero : b.size = 0 := by
          rcases h.off with ho | ho
          · rw [ht, List.length_nil] at ho
            exact absurd ho h0
          · rw [ht, List.length_nil] at ho
            omega
        exact ⟨h.toShows.of_size_zero hzero _, h.bounded⟩
      · rw [if_neg ht]
        exact h.extend hlt _

theorem formatCloneFlagsValue_prints (host : Host) (flags exitSignal : Word) :
    Prints (formatCloneFlagsValue host flags exitSignal)
      (cloneFlagsText host flags exitSignal) := by
  -- the table is kept abstract, so that nothing below evaluates the walk
  unfold formatCloneFlagsValue cloneFlagsText
  generalize cloneFlagTable = table
  refine ⟨fun n init hn => ?_, fun n init => ?_⟩
  · obtain ⟨hr, hrest⟩ := walkFlags_renders false table flags (renders_new hn init)
    have hs := appendSignal_renders hr (exitSignal ≠ 0) (exitSignalText host exitSignal)
    refine zeroOrRest_renders hs ?_
    intro hlt
    refine hrest ?_
    rw [← walkFlags_size false table (new n init) flags]
    split at hlt
    · rw [append_size] at hlt
      exact lt_of_append hlt
    · exact hlt
  · dsimp only
    split_ifs <;> simp

end Clone

/-! ## The others -/

/-- `format_signal_arg`: signal 0 is not a signal. -/
def signalArgText (host : Host) (value : Word) : Text :=
  let sig := signed 32 (value.toNat % 2 ^ 32)
  if sig = 0 then lit "0"
  else match host.sigabbrev sig with
    | some name => lit "SIG" ++ name
    | none => decInt sig

def formatSignalArg (host : Host) (value : Word) (out : OutBuf) : OutBuf :=
  out.snprintf (signalArgText host value)

/-- The direction of an ioctl request. -/
def iocDirName (dir : Nat) : String :=
  match dir with
  | 0 => "_IOC_NONE"
  | 2 => "_IOC_READ"
  | 1 => "_IOC_WRITE"
  | 3 => "_IOC_READ|_IOC_WRITE"
  | _ => "0"

/-- The text of `format_ioctl_request`: a name, or the fields of the low 32 bits. -/
def ioctlRequestText (value : Word) : Text :=
  match ioctlRequestTable.find? (·.value == value) with
  | some e => lit e.name
  | none =>
      let req := value.toNat % 2 ^ 32
      lit "_IOC(" ++ lit (iocDirName (req / 2 ^ 30 % 4)) ++ lit ", 0x" ++ hex (req / 2 ^ 8 % 2 ^ 8)
        ++ lit ", 0x" ++ hex (req % 2 ^ 8) ++ lit ", " ++ dec (req / 2 ^ 16 % 2 ^ 14) ++ lit ")"

def formatIoctlRequest (value : Word) (out : OutBuf) : OutBuf :=
  out.snprintf (ioctlRequestText value)

/-- The text of `format_file_mode`. -/
def fileModeText (value : Word) : Text :=
  if value = 0 then lit "0" else lit "0" ++ oct value.toNat

def formatFileMode (value : Word) (out : OutBuf) : OutBuf := out.snprintf (fileModeText value)

/-- `format_open_mode`: a mode only when the flags create a file. -/
def formatOpenMode (flags mode : Word) (out : OutBuf) : OutBuf :=
  if flags &&& 0x40 ≠ 0 ∨ flags &&& 0x410000 = 0x410000 then formatFileMode mode out
  else out.snprintf (hex0x mode.toNat)

/-- The text of `format_rusage_who`, which looks at the low 32 bits. -/
def rusageWhoText (value : Word) : Text :=
  let who := signed 32 (value.toNat % 2 ^ 32)
  if who = 0 then lit "RUSAGE_SELF"
  else if who = -1 then lit "RUSAGE_CHILDREN"
  else if who = 1 then lit "RUSAGE_THREAD"
  else hex0x value.toNat

def formatRusageWho (value : Word) (out : OutBuf) : OutBuf := out.snprintf (rusageWhoText value)

/-- The text of `format_rlim_value`. -/
def rlimValueText (v : Nat) : Text := if v = 2 ^ 64 - 1 then lit "RLIM_INFINITY" else dec v

def formatRlimValue (v : Nat) (out : OutBuf) : OutBuf := out.snprintf (rlimValueText v)

end MiniStrace
