/-
  Decoders/Nested.lean --- the scratch arrays inside the struct decoders.

  NESTED TEXTS.  A decoder of a struct lets another one print a field into a small array of
  its own, and copies what it finds there.  What does not fit into the small array is lost,
  however much room the struct's own array has.

  THE WIDTHS.  A walk over a table prints each name at most once, with a bar, and one hex
  numeral.  A signal set prints at most 31 names and 33 numbers.  Added up, none of these
  comes near the size of its array.
-/
import MiniStrace.Decoders.StructText
import MiniStrace.Decoders.CloneFlags

set_option autoImplicit false

namespace MiniStrace

open CLib OutBuf

/-! ## Walks -/

/-- The names of a table, with a bar for each. -/
def tableWidth (table : List FlagEntry) : Nat := (table.map fun e => (lit e.name).length + 1).sum

theorem length_barText_le (t : Text) : (barText t).length ≤ 1 := by
  rw [barText, lit_bar]
  split
  · exact Nat.zero_le 1
  · exact le_refl 1

theorem length_walkText_le (skipZero : Bool) (table : List FlagEntry) (t : Text) (v : Word) :
    (walkText skipZero table t v).1.length ≤ t.length + tableWidth table := by
  induction table generalizing t v with
  | nil => exact Nat.le_add_right _ _
  | cons e es ih =>
      have hsum : tableWidth (e :: es) = (lit e.name).length + 1 + tableWidth es := List.sum_cons
      rw [walkText]
      split
      · have hbar := length_barText_le t
        refine le_trans (ih _ _) ?_
        rw [List.length_append, List.length_append, hsum]
        omega
      · exact le_trans (ih _ _) (by omega)

/-- A walk takes bits away. -/
theorem walkText_rest_le (skipZero : Bool) (table : List FlagEntry) (t : Text) (v : Word) :
    (walkText skipZero table t v).2.toNat ≤ v.toNat := by
  induction table generalizing t v with
  | nil => exact le_refl _
  | cons e es ih =>
      rw [walkText]
      split
      · refine le_trans (ih _ _) ?_
        rw [BitVec.toNat_and]
        exact Nat.and_le_left
      · exact ih _ _

/-- The text of a walk over a value of at most `k` hex digits. -/
theorem length_flagsText_le {zero : String} {table : List FlagEntry} {v : Word} {k : Nat}
    (hzero : (lit zero).length ≤ 3) (hk : 0 < k) (hv : v.toNat < 16 ^ k) :
    (flagsText zero table v).length ≤ tableWidth table + 3 + k := by
  rw [flagsText]
  split
  · omega
  · have hnames := length_walkText_le false table [] v
    have hbar := length_barText_le (walkText false table [] v).1
    have hrest := length_hex0x_le hk (lt_of_le_of_lt (walkText_rest_le false table [] v) hv)
    rw [List.length_nil, Nat.zero_add] at hnames
    rw [walkRestText, List.length_append]
    split
    · rw [List.length_append]
      omega
    · rw [List.length_nil]
      omega

/-! ## Signal sets -/

/-- The C library names signals 1 to 31 only, with at most six characters behind `SIG`. -/
structure Host.ShortNames (host : Host) : Prop where
  range : ∀ sig t, host.sigabbrev sig = some t → 1 ≤ sig ∧ sig ≤ 31
  short : ∀ sig t, host.sigabbrev sig = some t → t.length ≤ 6

/-- What a signal of a set takes at most. -/
def signalWidth (sig : Nat) : Nat := if sig ≤ 31 then 9 else 2

theorem length_sigText_le {host : Host} (h : host.ShortNames) {sig : Nat} (hsig : sig ≤ 64) :
    (sigText host sig).length ≤ signalWidth sig := by
  have hlit : (lit "SIG").length = 3 := by with_unfolding_all decide
  have hdec : (dec sig).length ≤ 2 := length_dec_le (by decide) (by omega)
  unfold sigText signalWidth
  cases hname : host.sigabbrev sig with
  | some name =>
      have hrange := (h.range sig name hname).2
      have hshort := h.short sig name hname
      dsimp only
      rw [if_pos (by omega), List.length_append, hlit]
      omega
  | none =>
      dsimp only
      split <;> omega

theorem length_sigsetItems_le {host : Host} (h : host.ShortNames) (mask : Nat) {sigs : List Nat}
    (hsigs : ∀ sig ∈ sigs, sig ≤ 64) (first : Bool) :
    (sigsetItems host mask sigs first).length ≤ (sigs.map fun sig => signalWidth sig + 1).sum := by
  have hlit : (lit " ").length = 1 := by with_unfolding_all decide
  induction sigs generalizing first with
  | nil => exact Nat.zero_le _
  | cons sig sigs ih =>
      have hrest := fun first => ih (fun s hs => hsigs s (List.mem_cons_of_mem _ hs)) first
      have hwidth := length_sigText_le h (hsigs sig List.mem_cons_self)
      rw [sigsetItems, List.map_cons, List.sum_cons]
      split
      · have hnext := hrest false
        have hsep : (if first then [] else lit " ").length ≤ 1 := by
          cases first with
          | true => exact Nat.zero_le 1
          | false => exact hlit.le
        rw [List.length_append, List.length_append]
        omega
      · exact le_trans (hrest first) (Nat.le_add_left _ _)

theorem length_sigsetText_le {host : Host} (h : host.ShortNames) (mask : Nat) :
    (sigsetText host mask).length ≤ 411 := by
  have hlit : (lit "[").length = 1 ∧ (lit "]").length = 1 := by with_unfolding_all decide
  have hsum : ((List.range' 1 64).map fun sig => signalWidth sig + 1).sum = 409 := by decide
  have hsigs : ∀ sig ∈ List.range' 1 64, sig ≤ 64 := by
    intro sig hsig
    rw [List.mem_range'_1] at hsig
    omega
  have hitems := length_sigsetItems_le h mask hsigs true
  rw [sigsetText, List.length_append, List.length_append, hlit.1, hlit.2]
  omega

/-! ## The arrays -/

/-- The decoders that print into a scratch array, with what they print. -/
inductive NestedDecoder where
  | sigactionFlagsValue (flags : Word)
  | sigsetValue (mask : Word)
  | epollEventsValue (events : BitVec 32)
  | oneEpollEvent (ev : Text)
  | pollEventsValue (events : BitVec 16)

/-- The text of one event, its flags whole. -/
def epollEventWholeText (ev : Text) : Text :=
  lit "\x7bevents=" ++ flagsText "0" epollEventsFlagTable
    ((BitVec.ofNat 32 (field ev 0 4)).setWidth 64) ++ lit ", data=\x7bu32=" ++
    dec (field ev 4 4) ++ lit ", u64=" ++ dec (field ev 4 8) ++ lit "\x7d\x7d"

namespace NestedDecoder

/-- The function a member stands for. -/
def run (host : Host) : NestedDecoder → OutBuf → OutBuf
  | sigactionFlagsValue flags => formatSigactionFlagsValue flags
  | sigsetValue mask => formatSigsetValue host mask.toNat
  | epollEventsValue events => formatEpollEventsValue events
  | oneEpollEvent ev => formatOneEpollEvent host ev
  | pollEventsValue events => formatPollEventsValue events

/-- The size of the array its caller has for it. -/
def arraySize : NestedDecoder → Nat
  | sigactionFlagsValue _ => 256
  | sigsetValue _ => 512
  | epollEventsValue _ => 256
  | oneEpollEvent _ => 256
  | pollEventsValue _ => 128

/-- The text it prints, given unlimited room, here and in the array it has itself. -/
def text (host : Host) : NestedDecoder → Text
  | sigactionFlagsValue flags => flagsText "0" sigactionFlagTable flags
  | sigsetValue mask => sigsetText host mask.toNat
  | epollEventsValue events => flagsText "0" epollEventsFlagTable (events.setWidth 64)
  | oneEpollEvent ev => epollEventWholeText ev
  | pollEventsValue events => flagsText "0" pollEventsFlagTable (events.setWidth 64)

end NestedDecoder

theorem length_narrowFlags_le {w k : Nat} (table : List FlagEntry) (hw : 2 ^ w = 16 ^ k)
    (hk : 0 < k) (v : BitVec w) :
    (flagsText "0" table (v.setWidth 64)).length ≤ tableWidth table + 3 + k := by
  have hzero : (lit "0").length ≤ 3 := by with_unfolding_all decide
  refine length_flagsText_le hzero hk ?_
  rw [BitVec.toNat_setWidth]
  exact lt_of_le_of_lt (Nat.mod_le _ _) (hw ▸ v.isLt)

theorem length_epollEvents_le (events : BitVec 32) :
    (flagsText "0" epollEventsFlagTable (events.setWidth 64)).length ≤ 171 := by
  have htable : tableWidth epollEventsFlagTable = 160 := by with_unfolding_all decide
  have hlen := length_narrowFlags_le (k := 8) epollEventsFlagTable rfl (by decide) events
  omega

/-- The array `format_one_epoll_event` has for the flags holds them. -/
theorem epollEventText_whole (ev : Text) : epollEventText ev = epollEventWholeText ev := by
  have hlen := length_epollEvents_le (BitVec.ofNat 32 (field ev 0 4))
  rw [epollEventText, epollEventWholeText,
    cut_of_lt (fun c hc => (epollEvents_plain _).clean.ne_zero hc) (by omega)]

theorem length_epollEventWholeText_le (ev : Text) : (epollEventWholeText ev).length ≤ 229 := by
  have hlit : (lit "\x7bevents=").length = 8 ∧ (lit ", data=\x7bu32=").length = 12 ∧
      (lit ", u64=").length = 6 ∧ (lit "\x7d\x7d").length = 2 := by with_unfolding_all decide
  have hflags := length_epollEvents_le (BitVec.ofNat 32 (field ev 0 4))
  have h32 : (dec (field ev 4 4)).length ≤ 10 :=
    length_dec_le (by decide) (lt_trans (field_lt ev 4 4) (by decide))
  have h64 : (dec (field ev 4 8)).length ≤ 20 :=
    length_dec_le (by decide) (lt_trans (field_lt ev 4 8) (by decide))
  simp only [epollEventWholeText, List.length_append, hlit]
  omega

theorem NestedDecoder.run_prints (host : Host) (d : NestedDecoder) :
    Prints (d.run host) (d.text host) := by
  cases d with
  | sigactionFlagsValue flags => exact formatFlags_prints "0" sigactionFlagTable flags
  | sigsetValue mask => exact formatSigsetValue_prints host mask.toNat
  | epollEventsValue events => exact formatFlags_prints "0" epollEventsFlagTable _
  | oneEpollEvent ev =>
      change Prints (formatOneEpollEvent host ev) (epollEventWholeText ev)
      rw [formatOneEpollEvent_eq, epollEventText_whole]
      exact prints_snprintf _
  | pollEventsValue events => exact formatFlags_prints "0" pollEventsFlagTable _

theorem NestedDecoder.text_ne_nil (host : Host) (d : NestedDecoder) : d.text host ≠ [] := by
  have hlit : lit "[" ≠ [] ∧ lit "\x7bevents=" ≠ [] := by with_unfolding_all decide
  cases d with
  | sigactionFlagsValue flags => exact (sigactionFlags_plain flags).ne_nil
  | sigsetValue mask => simp [text, sigsetText, hlit]
  | epollEventsValue events => exact (epollEvents_plain _).ne_nil
  | oneEpollEvent ev => simp [text, epollEventWholeText, hlit]
  | pollEventsValue events =>
      have hplain : ∀ v, Plain (flagsText "0" pollEventsFlagTable v) :=
        flagsText_plain (by with_unfolding_all decide) (by with_unfolding_all decide)
      exact (hplain _).ne_nil

/-- Every text is shorter than the array for it. -/
theorem NestedDecoder.length_text_lt {host : Host} (h : host.ShortNames) (d : NestedDecoder) :
    (d.text host).length < d.arraySize := by
  have hwidth : tableWidth sigactionFlagTable = 83 ∧ tableWidth pollEventsFlagTable = 102 := by
    with_unfolding_all decide
  cases d with
  | sigactionFlagsValue flags =>
      have hlen := length_narrowFlags_le (k := 16) sigactionFlagTable rfl (by decide) flags
      rw [BitVec.setWidth_eq] at hlen
      change (flagsText "0" sigactionFlagTable flags).length < 256
      omega
  | sigsetValue mask =>
      have hlen := length_sigsetText_le h mask.toNat
      change (sigsetText host mask.toNat).length < 512
      omega
  | epollEventsValue events =>
      exact Nat.lt_of_le_of_lt (length_epollEvents_le events) (show 171 < 256 by decide)
  | oneEpollEvent ev =>
      exact Nat.lt_of_le_of_lt (length_epollEventWholeText_le ev) (show 229 < 256 by decide)
  | pollEventsValue events =>
      have hlen := length_narrowFlags_le (k := 4) pollEventsFlagTable rfl (by decide) events
      change (flagsText "0" pollEventsFlagTable (events.setWidth 64)).length < 128
      omega

/-- The array a decoder is given by its caller leaves nothing of its text out: what is in
it is what any larger one would hold, the whole text. -/
theorem nested_arrays_suffice {host : Host} (h : host.ShortNames) (d : NestedDecoder) {n : Nat}
    (hn : d.arraySize ≤ n) (hlt : n < 2 ^ 64) (init : Nat → Byte) :
    (d.run host (new n init)).str = cstr (d.text host) := by
  have hlen := d.length_text_lt h
  rw [(d.run_prints host).str_eq_cut hlt (by omega) (d.text_ne_nil host), cut,
    List.take_of_length_le (by omega)]

theorem chld_shortNames : chldHost.ShortNames := by
  have hlen : (lit "CHLD").length = 4 := by with_unfolding_all decide
  constructor
  · intro sig t h
    rw [(chldHost_sigabbrev h).1]
    decide
  · intro sig t h
    rw [(chldHost_sigabbrev h).2, hlen]
    decide

theorem nested_arrays_suffice_chld :
    chldHost.ShortNames ∧
      ((NestedDecoder.sigsetValue 0x10000).run chldHost (new 512 fun _ => 0x2a)).str =
        lit "[SIGCHLD]" := by
  have htext : cstr ((NestedDecoder.sigsetValue 0x10000).text chldHost) = lit "[SIGCHLD]" := by
    with_unfolding_all decide
  refine ⟨chld_shortNames, ?_⟩
  rw [nested_arrays_suffice chld_shortNames _ (le_refl 512) (by decide), htext]

/-- So the struct's own array gets both texts as they are. -/
theorem sigactionText_whole {host : Host} (h : host.ShortNames) (sa : Text) :
    sigactionText host sa =
      lit "\x7bsa_handler=" ++ handlerText (field sa 0 8) ++
        (lit ", sa_flags=" ++ flagsText "0" sigactionFlagTable (BitVec.ofNat 64 (field sa 8 8))) ++
        (lit ", sa_mask=" ++ cstr (sigsetText host (field sa 24 8)) ++ lit "\x7d") := by
  have hflags : (flagsText "0" sigactionFlagTable (BitVec.ofNat 64 (field sa 8 8))).length < 256 :=
    (NestedDecoder.sigactionFlagsValue _).length_text_lt h
  have hmask := length_sigsetText_le h (field sa 24 8)
  have hcut : cut 512 (sigsetText host (field sa 24 8)) =
      cstr (sigsetText host (field sa 24 8)) := by
    rw [cut, List.take_of_length_le (by omega)]
  rw [sigactionText, cut_of_lt (fun c hc => (sigactionFlags_plain _).clean.ne_zero hc) hflags, hcut]

end MiniStrace
