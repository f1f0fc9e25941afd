/-
  Decoders/StructRead.lean --- what the slot of a struct tells of the struct.

  THE LAYOUTS.  Seven decoders print a struct as a record: each field has a label, a place
  in the struct and a way of being printed.  `StructDecoder.layout` lists them, and
  `run_fills` holds the decoders against the list.

  WHAT IS TOLD.  Every way of printing gives back the value, and no value has a byte in it
  with which a label begins.  So the text in the slot of an argument, whatever is in the
  tracee's memory, tells the values of all the fields that are printed, and nothing else.
-/
import MiniStrace.Lib.Record
import MiniStrace.Decoders.Lossless
import MiniStrace.Decoders.Nested
import MiniStrace.Signals

set_option autoImplicit false

namespace MiniStrace

open CLib OutBuf

/-! ## Values -/

/-- The bytes that end a value: `,`, a closing brace, and NUL. -/
def structStop (b : Byte) : Bool := b.toNat == 0x2c || b.toNat == 0x7d || b.toNat == 0

/-- No byte of the text ends a value. -/
def StopFree (t : Text) : Prop := ∀ b ∈ t, structStop b = false

instance (t : Text) : Decidable (StopFree t) :=
  decidable_of_iff (t.all fun b => !structStop b) (by simp [StopFree])

@[simp] theorem stopFree_nil : StopFree [] := fun _ h => absurd h List.not_mem_nil

@[simp] theorem stopFree_append {s t : Text} : StopFree (s ++ t) ↔ StopFree s ∧ StopFree t :=
  List.forall_mem_append

theorem stopFree_numeral {base : Nat} (hb : 1 < base) (hb16 : base ≤ 16) (n : Nat) :
    StopFree (numeral base n) := by
  have hdigit : ∀ d < 16, structStop (digitByte d) = false := by decide
  intro b hmem
  obtain ⟨d, hd, rfl⟩ := mem_numeral hb hmem
  exact hdigit d (by omega)

@[simp] theorem stopFree_dec (n : Nat) : StopFree (dec n) :=
  stopFree_numeral (by decide) (by decide) n

@[simp] theorem stopFree_oct (n : Nat) : StopFree (oct n) :=
  stopFree_numeral (by decide) (by decide) n

@[simp] theorem stopFree_hex0x (n : Nat) : StopFree (hex0x n) := by
  have hlead : StopFree (lit "0x") := by decide +kernel
  exact stopFree_append.mpr ⟨hlead, stopFree_numeral (by decide) (by decide) n⟩

@[simp] theorem stopFree_decInt (z : Int) : StopFree (decInt z) := by
  have hminus : StopFree (lit "-") := by decide +kernel
  unfold decInt
  split
  · exact stopFree_append.mpr ⟨hminus, stopFree_dec _⟩
  · exact stopFree_dec _

theorem stopFree_modeText (mode : Nat) : StopFree (modeText mode) := by
  have hlit : StopFree (lit "|0") ∧ StopFree (lit "0") := by decide +kernel
  have hnames : ∀ s ∈ ["S_IFREG", "S_IFDIR", "S_IFCHR", "S_IFBLK", "S_IFIFO", "S_IFLNK",
      "S_IFSOCK"], StopFree (lit s) := by decide +kernel
  unfold modeText
  split
  · rename_i name hname
    have hmem : name ∈ ["S_IFREG", "S_IFDIR", "S_IFCHR", "S_IFBLK", "S_IFIFO", "S_IFLNK",
        "S_IFSOCK"] := by
      unfold statFileTypeName at hname
      split at hname <;> simp at hname <;> simp [← hname]
    simp [hlit, hnames name hmem]
  · simp [hlit]

theorem stopFree_walkText {table : List FlagEntry} (h : ∀ e ∈ table, StopFree (lit e.name))
    (skipZero : Bool) {t : Text} (ht : StopFree t) (value : Word) :
    StopFree (walkText skipZero table t value).1 := by
  have hbar : StopFree (lit "|") := by decide +kernel
  induction table generalizing t value with
  | nil => exact ht
  | cons e es ih =>
      have hes : ∀ e ∈ es, StopFree (lit e.name) := fun e he => h e (List.mem_cons_of_mem _ he)
      rw [walkText]
      split
      · refine ih hes ?_ _
        rw [stopFree_append, stopFree_append, barText]
        refine ⟨ht, ?_, h e List.mem_cons_self⟩
        split
        · exact stopFree_nil
        · exact hbar
      · exact ih hes ht value

theorem stopFree_flagsText {table : List FlagEntry} (h : ∀ e ∈ table, StopFree (lit e.name))
    (value : Word) : StopFree (flagsText "0" table value) := by
  have hlit : StopFree (lit "0") ∧ StopFree (lit "|") := by decide +kernel
  unfold flagsText
  split
  · exact hlit.1
  · rw [walkRestText, stopFree_append]
    refine ⟨stopFree_walkText h false stopFree_nil value, ?_⟩
    split
    · rw [stopFree_append, barText]
      refine ⟨?_, stopFree_hex0x _⟩
      split
      · exact stopFree_nil
      · exact hlit.2
    · exact stopFree_nil

/-- The names of the C library for signals: of capital letters and digits, none longer than
six, none for two signals, and none above 31. -/
structure Host.PlainSignals (host : Host) : Prop extends host.ShortNames, host.DistinctNames where
  capitals : ∀ sig t, host.sigabbrev sig = some t →
    ∀ b ∈ t, 0x30 ≤ b ∧ b ≤ 0x39 ∨ 0x41 ≤ b ∧ b ≤ 0x5a

theorem stopFree_sigText {host : Host} (h : host.PlainSignals) (sig : Nat) :
    StopFree (sigText host sig) := by
  have hlit : StopFree (lit "SIG") := by decide +kernel
  unfold sigText
  split
  · rename_i name hname
    refine stopFree_append.mpr ⟨hlit, fun b hb => ?_⟩
    have hcap := h.capitals _ _ hname b hb
    simp only [UInt8.le_iff_toNat_le, UInt8.toNat_ofNat] at hcap
    simp only [structStop, Bool.or_eq_false_iff, beq_eq_false_iff_ne]
    omega
  · exact stopFree_dec sig

theorem stopFree_sigsetItems {host : Host} (h : host.PlainSignals) (mask : Nat) (sigs : List Nat)
    (first : Bool) : StopFree (sigsetItems host mask sigs first) := by
  have hlit : StopFree (lit " ") := by decide +kernel
  induction sigs generalizing first with
  | nil => exact stopFree_nil
  | cons sig sigs ih =>
      rw [sigsetItems]
      split
      · cases first <;> simp [hlit, stopFree_sigText h, ih]
      · exact ih first

/-! ## Telling modes apart -/

/-- The name of a file type depends on four bits. -/
theorem statFileTypeName_eq (mode : Nat) :
    statFileTypeName mode = statFileTypeName (mode / 0x1000 % 0x10 * 0x1000) := by
  unfold statFileTypeName
  rw [Nat.mul_div_cancel _ (by decide), Nat.mod_mod]

/-- A file type by its name. -/
theorem statFileTypeName_type {mode mode' : Nat} {name : String}
    (h : statFileTypeName mode = some name) (h' : statFileTypeName mode' = some name) :
    mode / 0x1000 % 0x10 = mode' / 0x1000 % 0x10 := by
  have hall : ∀ a < 16, ∀ b < 16, (statFileTypeName (a * 0x1000)).isSome = true →
      statFileTypeName (a * 0x1000) = statFileTypeName (b * 0x1000) → a = b := by decide +kernel
  rw [statFileTypeName_eq] at h h'
  exact hall _ (Nat.mod_lt _ (by decide)) _ (Nat.mod_lt _ (by decide)) (by rw [h]; rfl)
    (h.trans h'.symm)

theorem modeText_named {mode : Nat} {name : String} (h : statFileTypeName mode = some name) :
    modeText mode = lit name ++ 0x7c :: 0x30 :: oct (mode - mode / 0x1000 % 0x10 * 0x1000) := by
  have hlit : lit "|0" = [0x7c, 0x30] := by with_unfolding_all decide
  rw [modeText, h]
  dsimp only
  rw [hlit, List.append_assoc]
  rfl

theorem modeText_bare {mode : Nat} (h : statFileTypeName mode = none) :
    modeText mode = 0x30 :: oct mode := by
  have hlit : lit "0" = [0x30] := by with_unfolding_all decide
  rw [modeText, h]
  dsimp only
  rw [hlit]
  rfl

/-- The name of a file type starts with `S` and has no bar in it. -/
theorem statFileTypeName_shape {mode : Nat} {name : String}
    (h : statFileTypeName mode = some name) :
    (∃ rest, lit name = 0x53 :: rest) ∧ 0x7c ∉ lit name := by
  have hall : ∀ a < 16, ((statFileTypeName (a * 0x1000)).all fun name =>
      (lit name).head? == some 0x53 && !(lit name).contains 0x7c) = true := by decide +kernel
  have hname := hall _ (Nat.mod_lt (mode / 0x1000) (by decide))
  rw [← statFileTypeName_eq, h] at hname
  simp only [Option.all_some, Bool.and_eq_true, beq_iff_eq, Bool.not_eq_true',
    List.contains_eq_mem, decide_eq_false_iff_not] at hname
  exact ⟨List.head?_eq_some_iff.mp hname.1, hname.2⟩

theorem modeText_injective : Function.Injective modeText := by
  have hbare : ∀ {mode mode' : Nat} {name : String}, statFileTypeName mode = none →
      statFileTypeName mode' = some name → modeText mode ≠ modeText mode' := by
    intro mode mode' name h h' heq
    obtain ⟨⟨rest, hrest⟩, -⟩ := statFileTypeName_shape h'
    rw [modeText_bare h, modeText_named h', hrest] at heq
    exact absurd (List.cons.inj heq).1 (by decide)
  intro mode mode' heq
  cases h : statFileTypeName mode with
  | none =>
      cases h' : statFileTypeName mode' with
      | none =>
          rw [modeText_bare h, modeText_bare h'] at heq
          exact numeral_injective (by decide) (by decide) (List.cons.inj heq).2
      | some name' => exact absurd heq (hbare h h')
  | some name =>
      cases h' : statFileTypeName mode' with
      | none => exact absurd heq.symm (hbare h' h)
      | some name' =>
          rw [modeText_named h, modeText_named h'] at heq
          obtain ⟨hname, hbits⟩ := append_sep_inj (statFileTypeName_shape h).2
            (statFileTypeName_shape h').2 heq
          obtain rfl : name = name' := lit_injective hname
          have htype := statFileTypeName_type h h'
          have hrest := numeral_injective (by decide) (by decide) (List.cons.inj hbits).2
          omega

/-! ## Ways of printing -/

/-- The ways in which fields are printed. -/
inductive FieldKind where
  | decimal | unsigned | mode | limit | epollEvents | handler | sigactionFlags | sigset
  deriving DecidableEq, Repr

namespace FieldKind

/-- A value of so many bytes. -/
def text (host : Host) (len : Nat) : FieldKind → Nat → Text
  | decimal, v => decInt (signed (8 * len) v)
  | unsigned, v => dec v
  | mode, v => modeText v
  | limit, v => rlimValueText v
  | epollEvents, v => flagsText "0" epollEventsFlagTable ((BitVec.ofNat 32 v).setWidth 64)
  | handler, v => handlerText v
  | sigactionFlags, v => flagsText "0" sigactionFlagTable (BitVec.ofNat 64 v)
  | sigset, v => sigsetText host v

/-- The bytes of which the value is printed. -/
def maxLen : FieldKind → Nat
  | epollEvents => 4
  | _ => 8

/-- The room for a text. -/
def width : FieldKind → Nat
  | epollEvents => 171
  | sigactionFlags => 102
  | sigset => 411
  | limit => 20
  | _ => 32

theorem stopFree_text {host : Host} (h : host.PlainSignals) (kind : FieldKind) (len v : Nat) :
    StopFree (kind.text host len v) := by
  have hlit : StopFree (lit "RLIM_INFINITY") ∧ StopFree (lit "SIG_DFL") ∧ StopFree (lit "SIG_IGN") ∧
      StopFree (lit "[") ∧ StopFree (lit "]") := by decide +kernel
  have htables : (∀ e ∈ epollEventsFlagTable, StopFree (lit e.name)) ∧
      ∀ e ∈ sigactionFlagTable, StopFree (lit e.name) := by decide +kernel
  cases kind with
  | decimal => exact stopFree_decInt _
  | unsigned => exact stopFree_dec v
  | mode => exact stopFree_modeText v
  | limit =>
      change StopFree (rlimValueText v)
      unfold rlimValueText
      split_ifs <;> simp [hlit]
  | epollEvents => exact stopFree_flagsText htables.1 _
  | handler =>
      change StopFree (handlerText v)
      unfold handlerText
      split_ifs <;> simp [hlit]
  | sigactionFlags => exact stopFree_flagsText htables.2 _
  | sigset => simp [text, sigsetText, hlit, stopFree_sigsetItems h]

theorem signed_inj {w v v' : Nat} (hv : v < 2 ^ w) (hv' : v' < 2 ^ w)
    (h : signed w v = signed w v') : v = v' := by
  have hmod := congrArg (· % ((2 ^ w : Nat) : Int)) h
  simp only [signed, Int.bmod_emod] at hmod
  rw [← Int.natCast_mod, ← Int.natCast_mod, Nat.mod_eq_of_lt hv, Nat.mod_eq_of_lt hv'] at hmod
  exact Int.ofNat_inj.mp hmod

/-- The smaller of the two residues around zero. -/
theorem natAbs_signed_le (w v : Nat) : (signed w v).natAbs ≤ v := by
  have hpos : 0 < 2 ^ w := Nat.two_pow_pos w
  have hle : v % 2 ^ w ≤ v := Nat.mod_le _ _
  have hlt : v % 2 ^ w < 2 ^ w := Nat.mod_lt _ hpos
  rw [signed, Int.bmod_def, ← Int.natCast_mod]
  split_ifs <;> omega

theorem rlimValueText_injective : Function.Injective rlimValueText := by
  have hword : (0x52 : Byte) ∈ lit "RLIM_INFINITY" := by with_unfolding_all decide
  have hnumber : ∀ v, lit "RLIM_INFINITY" ≠ dec v := by
    intro v heq
    have hdigit := mem_dec (heq ▸ hword)
    exact absurd hdigit.2 (by decide)
  intro v v' heq
  unfold rlimValueText at heq
  split_ifs at heq with h h'
  · rw [h, h']
  · exact absurd heq (hnumber v')
  · exact absurd heq.symm (hnumber v)
  · exact dec_injective heq

theorem handlerText_cases (v : Nat) :
    v = 0 ∧ handlerText v = lit "SIG_DFL" ∨ v = 1 ∧ handlerText v = lit "SIG_IGN" ∨
      handlerText v = hex0x v := by
  unfold handlerText
  split_ifs with h₀ h₁
  · exact Or.inl ⟨h₀, rfl⟩
  · exact Or.inr (Or.inl ⟨h₁, rfl⟩)
  · exact Or.inr (Or.inr rfl)

theorem handlerText_injective : Function.Injective handlerText := by
  have hlit : (0x53 : Byte) ∈ lit "SIG_DFL" ∧ (0x53 : Byte) ∈ lit "SIG_IGN" ∧
      lit "SIG_DFL" ≠ lit "SIG_IGN" := by with_unfolding_all decide
  have hhex : ∀ n, (0x53 : Byte) ∉ hex0x n :=
    not_mem_hex0x (by with_unfolding_all decide) (by decide)
  intro v v' heq
  rcases handlerText_cases v with ⟨hv, h⟩ | ⟨hv, h⟩ | h <;>
    rcases handlerText_cases v' with ⟨hv', h'⟩ | ⟨hv', h'⟩ | h' <;> rw [h, h'] at heq
  · rw [hv, hv']
  · exact absurd heq hlit.2.2
  · exact absurd (heq ▸ hlit.1) (hhex v')
  · exact absurd heq.symm hlit.2.2
  · rw [hv, hv']
  · exact absurd (heq ▸ hlit.2.1) (hhex v')
  · exact absurd (heq ▸ hlit.1) (hhex v)
  · exact absurd (heq ▸ hlit.2.1) (hhex v)
  · exact numeral_injective (by decide) (by decide) (List.append_cancel_left heq)

/-- Whatever the way of printing, the text gives back the value. -/
theorem text_inj {host : Host} (h : host.PlainSignals) {kind : FieldKind} {len v v' : Nat}
    (hlen : len ≤ kind.maxLen) (hv : v < 256 ^ len) (hv' : v' < 256 ^ len)
    (heq : kind.text host len v = kind.text host len v') : v = v' := by
  have hpow : 256 ^ len ≤ 256 ^ kind.maxLen := Nat.pow_le_pow_right (by decide) hlen
  have hword : ∀ {w v v' : Nat}, v < 2 ^ w → v' < 2 ^ w → BitVec.ofNat w v = BitVec.ofNat w v' →
      v = v' := by
    intro w v v' hv hv' h
    have hnat := congrArg BitVec.toNat h
    rwa [BitVec.toNat_ofNat, BitVec.toNat_ofNat, Nat.mod_eq_of_lt hv, Nat.mod_eq_of_lt hv'] at hnat
  cases kind with
  | decimal =>
      have hbits : 256 ^ len = 2 ^ (8 * len) := by rw [Nat.pow_mul]
      rw [hbits] at hv hv'
      exact signed_inj hv hv' (decInt_injective heq)
  | unsigned => exact dec_injective heq
  | mode => exact modeText_injective heq
  | limit => exact rlimValueText_injective heq
  | epollEvents =>
      exact hword (lt_of_lt_of_le hv hpow) (lt_of_lt_of_le hv' hpow)
        (FlagDecoder.text_injective .epollEventsValue heq)
  | handler => exact handlerText_injective heq
  | sigactionFlags =>
      exact hword (lt_of_lt_of_le hv hpow) (lt_of_lt_of_le hv' hpow)
        (FlagDecoder.text_injective .sigactionFlagsValue heq)
  | sigset =>
      have hlt : v < 2 ^ 64 ∧ v' < 2 ^ 64 := ⟨lt_of_lt_of_le hv hpow, lt_of_lt_of_le hv' hpow⟩
      have hmembers := sigsetItems_inj h.toDistinctNames
        (List.append_cancel_left (List.append_cancel_right heq))
      refine hword hlt.1 hlt.2 (sigsetMembers_inj ?_)
      rwa [BitVec.toNat_ofNat, BitVec.toNat_ofNat, Nat.mod_eq_of_lt hlt.1, Nat.mod_eq_of_lt hlt.2]

theorem length_modeText_le {v : Nat} (hv : v < 2 ^ 64) : (modeText v).length ≤ 32 := by
  have hnames : ∀ a < 16, ((statFileTypeName (a * 0x1000)).all fun name =>
      decide ((lit name).length ≤ 8)) = true := by decide +kernel
  have hoct : ∀ n < 2 ^ 64, (oct n).length ≤ 22 := fun n hn =>
    length_numeral_le (by decide) (by decide) (lt_of_lt_of_le hn (by decide))
  cases h : statFileTypeName v with
  | none =>
      have hle := hoct v hv
      rw [modeText_bare h, List.length_cons]
      omega
  | some name =>
      have hname := hnames _ (Nat.mod_lt (v / 0x1000) (by decide))
      rw [← statFileTypeName_eq, h, Option.all_some, decide_eq_true_eq] at hname
      have hle := hoct (v - v / 0x1000 % 0x10 * 0x1000) (by omega)
      rw [modeText_named h, List.length_append, List.length_cons, List.length_cons]
      omega

theorem length_text_le {host : Host} (h : host.PlainSignals) (kind : FieldKind) {len v : Nat}
    (hlen : len ≤ kind.maxLen) (hv : v < 256 ^ len) :
    (kind.text host len v).length ≤ kind.width := by
  have hv64 : v < 2 ^ 64 := by
    refine lt_of_lt_of_le hv (le_trans (Nat.pow_le_pow_right (by decide) hlen) ?_)
    cases kind <;> decide
  have hdec : ∀ n < 2 ^ 64, (dec n).length ≤ 20 := fun n hn =>
    length_dec_le (by decide) (lt_of_lt_of_le hn (by decide))
  have hlit : (lit "RLIM_INFINITY").length ≤ 20 ∧ (lit "SIG_DFL").length ≤ 32 ∧
      (lit "SIG_IGN").length ≤ 32 ∧ (lit "-").length = 1 := by with_unfolding_all decide
  cases kind with
  | decimal =>
      have hd := hdec _ (lt_of_le_of_lt (natAbs_signed_le (8 * len) v) hv64)
      change (decInt (signed (8 * len) v)).length ≤ 32
      unfold decInt
      split
      · rw [List.length_append, hlit.2.2.2]
        omega
      · omega
  | unsigned => exact le_trans (hdec v hv64) (by decide)
  | mode => exact length_modeText_le hv64
  | limit =>
      change (rlimValueText v).length ≤ 20
      unfold rlimValueText
      split
      · exact hlit.1
      · exact hdec v hv64
  | epollEvents => exact length_epollEvents_le _
  | handler =>
      change (handlerText v).length ≤ 32
      have hhex : (hex0x v).length ≤ 2 + 16 :=
        length_hex0x_le (by decide) (lt_of_lt_of_le hv64 (by decide))
      rcases handlerText_cases v with ⟨-, hv⟩ | ⟨-, hv⟩ | hv <;> rw [hv]
      · exact hlit.2.1
      · exact hlit.2.2.1
      · omega
  | sigactionFlags =>
      have hwidth : tableWidth sigactionFlagTable = 83 := by with_unfolding_all decide
      have hle := length_narrowFlags_le (k := 16) sigactionFlagTable rfl (by decide)
        (BitVec.ofNat 64 v)
      rw [BitVec.setWidth_eq, hwidth] at hle
      exact hle
  | sigset => exact length_sigsetText_le h.toShortNames v

end FieldKind

/-! ## Layouts -/

/-- A field of a struct on x86-64: its label, its place and how it is printed. -/
structure FieldSpec where
  label : String
  off : Nat
  len : Nat
  kind : FieldKind

/-- A struct: its size, the fields that are printed, and what stands behind the last. -/
structure Layout where
  size : Nat
  fields : List FieldSpec
  close : String

namespace Layout

/-- The values of the fields that are printed. -/
def values (l : Layout) (raw : Text) : List Nat := l.fields.map fun f => field raw f.off f.len

/-- The text of a struct, as a record of its bytes. -/
def record (host : Host) (l : Layout) : Record Text where
  fields := l.fields.map fun f =>
    ⟨lit f.label, fun raw => f.kind.text host f.len (field raw f.off f.len)⟩
  close := lit l.close

/-- The room for the text. -/
def width (l : Layout) : Nat :=
  (l.fields.map fun f => (lit f.label).length + f.kind.width).sum + (lit l.close).length

/-- Labels begin where values end, the first with a brace; no value is too long for its way of
being printed, and the text is none too long for a slot. -/
structure WellFormed (l : Layout) : Prop where
  lens : ∀ f ∈ l.fields, f.len ≤ f.kind.maxLen
  labels : ∀ f ∈ l.fields.tail, opensWith structStop (lit f.label) = true
  close : opensWith structStop (lit l.close) = true
  open_ : (l.fields.head?.bind fun f => (lit f.label).head?) = some 0x7b
  clean : (∀ f ∈ l.fields, Clean (lit f.label)) ∧ Clean (lit l.close)
  fits : l.width < strArgBufLen

section Told

variable {host : Host} (hh : host.PlainSignals) {l : Layout} (h : l.WellFormed)

include hh h

theorem WellFormed.delimited : (l.record host).Delimited structStop where
  values := by
    intro f hf raw
    obtain ⟨spec, -, rfl⟩ := List.mem_map.mp hf
    exact spec.kind.stopFree_text hh _ _
  labels := by
    intro f hf
    rw [record, ← List.map_tail] at hf
    obtain ⟨spec, hspec, rfl⟩ := List.mem_map.mp hf
    exact h.labels spec hspec
  close := h.close

/-- Two structs are printed alike exactly if they agree on the fields that are printed. -/
theorem WellFormed.text_eq_iff (raw raw' : Text) :
    (l.record host).text raw = (l.record host).text raw' ↔ l.values raw = l.values raw' := by
  rw [values, values, List.map_inj_left]
  constructor
  · intro heq f hf
    have hvalues := ((h.delimited hh).text_append_inj (congrArg (· ++ []) heq)).1
    exact FieldKind.text_inj hh (h.lens f hf) (field_lt raw f.off f.len) (field_lt raw' f.off f.len)
      (hvalues _ (List.mem_map_of_mem hf))
  · intro heq
    refine Record.text_congr fun f hf => ?_
    obtain ⟨spec, hspec, rfl⟩ := List.mem_map.mp hf
    exact congrArg (spec.kind.text host spec.len) (heq spec hspec)

theorem WellFormed.length_text_lt (raw : Text) :
    ((l.record host).text raw).length < strArgBufLen := by
  refine lt_of_le_of_lt ?_ h.fits
  rw [Record.text, List.length_append, width, List.length_flatMap, record, List.map_map]
  refine Nat.add_le_add_right (List.sum_le_sum fun f hf => ?_) _
  rw [Function.comp_apply, List.length_append]
  exact Nat.add_le_add_left
    (f.kind.length_text_le hh (h.lens f hf) (field_lt raw f.off f.len)) _

theorem WellFormed.text_ne_zero (raw : Text) : ∀ b ∈ (l.record host).text raw, b ≠ 0 := by
  intro b hb
  rw [Record.text, List.mem_append, List.mem_flatMap] at hb
  rcases hb with ⟨f, hf, hb⟩ | hb
  · obtain ⟨spec, hspec, rfl⟩ := List.mem_map.mp hf
    rcases List.mem_append.mp hb with hb | hb
    · exact (h.clean.1 spec hspec).ne_zero hb
    · rintro rfl
      exact absurd (spec.kind.stopFree_text hh _ _ 0 hb) (by decide)
  · exact h.clean.2.ne_zero hb

omit hh in
/-- The text of a struct opens with a brace. -/
theorem WellFormed.head_text (host : Host) (raw : Text) :
    ((l.record host).text raw).head? = some 0x7b := by
  have hopen := h.open_
  rw [Record.text, record]
  cases hfields : l.fields with
  | nil => rw [hfields] at hopen; cases hopen
  | cons f fs =>
      rw [hfields] at hopen
      have hlabel : (lit f.label).head? = some 0x7b := hopen
      obtain ⟨rest, hrest⟩ := List.head?_eq_some_iff.mp hlabel
      simp [hrest]

end Told

end Layout

/-- The decoders of structs of fixed size with fields of their own. -/
inductive StructDecoder where
  | timespec | rlimit | rusage | statBuf | statxBuf | epollEvent | sigaction
  deriving DecidableEq, Repr

namespace StructDecoder

/-- The function a member stands for. -/
def run (host : Host) (m : Mem) (addr : Word) : StructDecoder → OutBuf → OutBuf
  | timespec => formatTimespec m addr
  | rlimit => formatRlimit host m addr
  | rusage => formatRusage m addr
  | statBuf => formatStatBuf m addr
  | statxBuf => formatStatxBuf m addr
  | epollEvent => formatEpollEvent host m addr
  | sigaction => formatSigaction host m addr

def layout : StructDecoder → Layout
  | timespec =>
      ⟨16, [⟨"\x7btv_sec=", 0, 8, .decimal⟩, ⟨", tv_nsec=", 8, 8, .decimal⟩], "\x7d"⟩
  | rlimit =>
      ⟨16, [⟨"\x7brlim_cur=", 0, 8, .limit⟩, ⟨", rlim_max=", 8, 8, .limit⟩], "\x7d"⟩
  | rusage =>
      ⟨144, [⟨"\x7bru_utime=\x7btv_sec=", 0, 8, .decimal⟩, ⟨", tv_usec=", 8, 8, .decimal⟩,
        ⟨"\x7d, ru_stime=\x7btv_sec=", 16, 8, .decimal⟩, ⟨", tv_usec=", 24, 8, .decimal⟩,
        ⟨"\x7d, ru_maxrss=", 32, 8, .decimal⟩], "\x7d"⟩
  | statBuf =>
      ⟨144, [⟨"\x7bst_mode=", 24, 4, .mode⟩, ⟨", st_size=", 48, 8, .decimal⟩,
        ⟨", st_nlink=", 16, 8, .unsigned⟩, ⟨", st_uid=", 28, 4, .unsigned⟩,
        ⟨", st_gid=", 32, 4, .unsigned⟩], "\x7d"⟩
  | statxBuf =>
      ⟨256, [⟨"\x7bstx_mode=", 28, 2, .mode⟩, ⟨", stx_size=", 40, 8, .unsigned⟩,
        ⟨", stx_nlink=", 16, 4, .unsigned⟩, ⟨", stx_uid=", 20, 4, .unsigned⟩,
        ⟨", stx_gid=", 24, 4, .unsigned⟩], "\x7d"⟩
  | epollEvent =>
      ⟨12, [⟨"\x7bevents=", 0, 4, .epollEvents⟩, ⟨", data=\x7bu32=", 4, 4, .unsigned⟩,
        ⟨", u64=", 4, 8, .unsigned⟩], "\x7d\x7d"⟩
  | sigaction =>
      ⟨32, [⟨"\x7bsa_handler=", 0, 8, .handler⟩, ⟨", sa_flags=", 8, 8, .sigactionFlags⟩,
        ⟨", sa_mask=", 24, 8, .sigset⟩], "\x7d"⟩

theorem layout_wellFormed (d : StructDecoder) : d.layout.WellFormed := by
  cases d <;> constructor <;> decide +kernel

/-- The text a member prints of the bytes of a struct. -/
def text (host : Host) : StructDecoder → Text → Text
  | timespec => timespecText
  | rlimit => rlimitText
  | rusage => rusageText
  | statBuf => statText
  | statxBuf => statxText
  | epollEvent => epollEventText
  | sigaction => sigactionText host

theorem run_fills (host : Host) (d : StructDecoder) (m : Mem) (addr : Word) :
    Fills 13 (d.run host m addr) (structText m addr d.layout.size (d.text host)) := by
  have hmono : ∀ {p : OutBuf → OutBuf} {t : Text}, Fills 1 p t → Fills 13 p t :=
    fun h => h.mono (by decide)
  cases d with
  | timespec => exact hmono (formatTimespec_fills m addr)
  | rlimit => exact hmono (formatRlimit_fills host m addr)
  | rusage => exact hmono (formatRusage_fills m addr)
  | statBuf => exact hmono (formatStatBuf_fills m addr)
  | statxBuf => exact hmono (formatStatxBuf_fills m addr)
  | epollEvent => exact hmono (formatEpollEvent_fills host m addr)
  | sigaction => exact formatSigaction_fills host m addr

/-- The decoders print what the layouts list; no scratch array cuts a field short. -/
theorem text_eq_record {host : Host} (h : host.PlainSignals) (d : StructDecoder) (raw : Text) :
    d.text host raw = (d.layout.record host).text raw := by
  have hlimit : ∀ off,
      cut 32 (rlimValueText (field raw off 8)) = rlimValueText (field raw off 8) := by
    intro off
    have hlen : (rlimValueText (field raw off 8)).length ≤ 20 :=
      FieldKind.limit.length_text_le h (le_refl 8) (field_lt raw off 8)
    exact cut_of_lt (fun b hb => (rlimValueText_plain _).clean.ne_zero hb) (by omega)
  have hmask : cstr (sigsetText host (field raw 24 8)) = sigsetText host (field raw 24 8) := by
    refine cstr_of_forall_ne_zero fun b hb => ?_
    rintro rfl
    exact absurd (FieldKind.sigset.stopFree_text h 8 _ 0 hb) (by decide)
  cases d with
  | timespec =>
      simp [text, timespecText, Record.text, Layout.record, layout, FieldKind.text, fieldInt]
  | rlimit =>
      simp [text, rlimitText, hlimit, Record.text, Layout.record, layout, FieldKind.text]
  | rusage =>
      simp [text, rusageText, Record.text, Layout.record, layout, FieldKind.text, fieldInt]
  | statBuf =>
      simp [text, statText, Record.text, Layout.record, layout, FieldKind.text, fieldInt]
  | statxBuf => simp [text, statxText, Record.text, Layout.record, layout, FieldKind.text]
  | epollEvent =>
      simp [text, epollEventText_whole, epollEventWholeText, Record.text, Layout.record, layout,
        FieldKind.text]
  | sigaction =>
      simp [text, sigactionText_whole h.toShortNames, hmask, Record.text, Layout.record, layout,
        FieldKind.text]

/-! ## Slots -/

/-- What is told of a struct at an address. -/
inductive View where
  | null
  | unread (addr : Word)
  | shown (values : List Nat)
  deriving DecidableEq, Repr

def view (d : StructDecoder) (m : Mem) (addr : Word) : View :=
  if addr = 0 then .null
  else
    let raw := readChildRaw m addr d.layout.size
    if raw.length < d.layout.size then .unread addr else .shown (d.layout.values raw)

/-- How what is told is printed: no two of the three ways open alike. -/
theorem structText_cases (host : Host) (d : StructDecoder) (m : Mem) (addr : Word) :
    d.view m addr = .null ∧
        structText m addr d.layout.size (d.layout.record host).text = lit "NULL" ∨
      d.view m addr = .unread addr ∧
        structText m addr d.layout.size (d.layout.record host).text = hex0x addr.toNat ∨
      ∃ raw, d.view m addr = .shown (d.layout.values raw) ∧
        structText m addr d.layout.size (d.layout.record host).text =
          (d.layout.record host).text raw := by
  unfold view structText
  dsimp only
  split_ifs with h₀ h
  · exact Or.inl ⟨rfl, rfl⟩
  · exact Or.inr (Or.inl ⟨rfl, rfl⟩)
  · exact Or.inr (Or.inr ⟨_, rfl, rfl⟩)

theorem structText_eq_iff {host : Host} (h : host.PlainSignals) (d : StructDecoder) (m m' : Mem)
    (addr addr' : Word) :
    structText m addr d.layout.size (d.layout.record host).text =
        structText m' addr' d.layout.size (d.layout.record host).text ↔
      d.view m addr = d.view m' addr' := by
  have hnull : (lit "NULL").head? = some 0x4e := by with_unfolding_all decide
  have hhex : ∀ n, (hex0x n).head? = some 0x30 := fun n => by
    rw [hex0x, lit_hexLead]
    rfl
  have hshown := d.layout_wellFormed.head_text host
  have hapart : ∀ {s t : Text} {b c : Byte}, s.head? = some b → t.head? = some c → b ≠ c →
      s ≠ t := by
    rintro s t b c hs ht hne rfl
    exact hne (Option.some.inj (hs.symm.trans ht))
  rcases structText_cases host d m addr with ⟨hv, ht⟩ | ⟨hv, ht⟩ | ⟨raw, hv, ht⟩ <;>
    rcases structText_cases host d m' addr' with ⟨hv', ht'⟩ | ⟨hv', ht'⟩ | ⟨raw', hv', ht'⟩ <;>
    rw [hv, ht, hv', ht']
  · exact iff_of_true rfl rfl
  · exact iff_of_false (hapart hnull (hhex _) (by decide)) View.noConfusion
  · exact iff_of_false (hapart hnull (hshown _) (by decide)) View.noConfusion
  · exact iff_of_false (hapart (hhex _) hnull (by decide)) View.noConfusion
  · have hinj : Function.Injective hex := numeral_injective (by decide) (by decide)
    rw [View.unread.injEq, hex0x, hex0x, List.append_cancel_left_eq, hinj.eq_iff, BitVec.toNat_inj]
  · exact iff_of_false (hapart (hhex _) (hshown _) (by decide)) View.noConfusion
  · exact iff_of_false (hapart (hshown _) hnull (by decide)) View.noConfusion
  · exact iff_of_false (hapart (hshown _) (hhex _) (by decide)) View.noConfusion
  · rw [View.shown.injEq]
    exact d.layout_wellFormed.text_eq_iff h raw raw'

/-- The slot holds the text, whole. -/
theorem run_str {host : Host} (h : host.PlainSignals) (d : StructDecoder) (m : Mem) (addr : Word)
    (init : Nat → Byte) :
    (d.run host m addr (new strArgBufLen init)).str =
      structText m addr d.layout.size (d.layout.record host).text := by
  have htext : d.text host = (d.layout.record host).text := funext (d.text_eq_record h)
  have hplain : structText m addr d.layout.size (d.layout.record host).text ≠ [] ∧
      (∀ b ∈ structText m addr d.layout.size (d.layout.record host).text, b ≠ 0) ∧
      (structText m addr d.layout.size (d.layout.record host).text).length < strArgBufLen := by
    have hnull : (lit "NULL").length < strArgBufLen := by with_unfolding_all decide
    rcases d.structText_cases host m addr with ⟨-, ht⟩ | ⟨-, ht⟩ | ⟨raw, -, ht⟩ <;> rw [ht]
    · exact ⟨plain_null.ne_nil, fun b hb => plain_null.clean.ne_zero hb, hnull⟩
    · have hlen : (hex0x addr.toNat).length ≤ 2 + 16 := length_hex0x_le (by decide) addr.isLt
      exact ⟨(plain_hex0x _).ne_nil, fun b hb => (clean_hex0x _).ne_zero hb,
        lt_of_le_of_lt hlen (by decide)⟩
    · have hopen := d.layout_wellFormed.head_text host raw
      refine ⟨fun hnil => ?_, d.layout_wellFormed.text_ne_zero h raw,
        d.layout_wellFormed.length_text_lt h raw⟩
      rw [hnil] at hopen
      cases hopen
  have hfills := d.run_fills host m addr
  rw [htext] at hfills
  rw [hfills.str_eq_cut (by decide) strArgBufLen_lt (by decide) hplain.1,
    cut_of_lt hplain.2.1 hplain.2.2]

end StructDecoder

/-- The text in the slot of a struct argument tells whether the pointer was null, the address
when the struct could not be read, and otherwise the values of all the fields that are
printed, whatever they are; and it depends on nothing else. -/
theorem structSlot_eq_iff {host : Host} (h : host.PlainSignals) (d : StructDecoder) (m m' : Mem)
    (addr addr' : Word) (init init' : Nat → Byte) :
    (d.run host m addr (new strArgBufLen init)).str =
        (d.run host m' addr' (new strArgBufLen init')).str ↔
      d.view m addr = d.view m' addr' := by
  rw [d.run_str h, d.run_str h, d.structText_eq_iff h]

theorem chld_plainSignals : chldHost.PlainSignals where
  toShortNames := chld_shortNames
  injective := fun sig sig' t h h' => by
    rw [(chldHost_sigabbrev h).1, (chldHost_sigabbrev h').1]
  word := fun sig t h => by
    rw [(chldHost_sigabbrev h).2]
    with_unfolding_all decide
  capitals := fun sig t h => by
    rw [(chldHost_sigabbrev h).2]
    decide +kernel

/-- A handler, and the third byte of its mask: bit 0 blocks signal 17. -/
def handlerBlocking (mask : Byte) : Mem := fun a =>
  some (if a = 0x1000 then 0x40 else if a = 0x101a then mask else 0)

theorem sigactionSlot_masks :
    (formatSigaction chldHost (handlerBlocking 1) 0x1000 (new strArgBufLen fun _ => 0)).str ≠
      (formatSigaction chldHost (handlerBlocking 0) 0x1000 (new strArgBufLen fun _ => 0)).str :=
  fun heq => absurd ((structSlot_eq_iff chld_plainSignals .sigaction _ _ _ _ _ _).mp heq)
    (by decide +kernel)

end MiniStrace
