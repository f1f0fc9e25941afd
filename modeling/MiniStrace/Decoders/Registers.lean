/-
  Decoders/Registers.lean --- arguments of 32 bits in registers of 64.

  THE TWO FORMS.  The kernel looks at the low 32 bits of an `int` argument; the upper
  half of the register is whatever the caller left there, most often zeroes or copies of
  the sign.  The two forms differ exactly when bit 31 is set.

  THE DECODERS.  Two of them narrow the register themselves.  The others compare or mask
  all of it, so that they name a value with bit 31 set in one form only, if at all.
  Such a value has a name in three of the tables.
-/
import MiniStrace.Decoders.Ioctl
import MiniStrace.Decoders.Lossless
import MiniStrace.Decoders.Structs

set_option autoImplicit false

namespace MiniStrace

open CLib OutBuf

/-! ## The two forms -/

section Forms

variable (n : BitVec 32)

theorem toNat_zeroExtended : (n.setWidth 64).toNat = n.toNat := by
  rw [BitVec.toNat_setWidth]
  omega

/-- Both forms have the argument in their low half. -/
theorem signExtended_low : (n.signExtend 64).toNat % 2 ^ 32 = n.toNat := by
  rw [BitVec.toNat_signExtend, BitVec.toNat_setWidth]
  split <;> omega

theorem signExtended_eq_iff : n.signExtend 64 = n.setWidth 64 ↔ n.msb = false := by
  constructor
  · intro h
    have hmsb := congrArg BitVec.msb h
    simpa [BitVec.msb_signExtend, BitVec.msb_setWidth] using hmsb
  · exact BitVec.signExtend_eq_setWidth_of_msb_false

theorem le_zeroExtended (h : n.msb = true) : 2 ^ 31 ≤ (n.setWidth 64).toNat := by
  have hn := BitVec.msb_eq_decide n
  rw [h, eq_comm, decide_eq_true_eq] at hn
  rw [toNat_zeroExtended]
  exact hn

end Forms

/-! ## Texts without a numeral -/

/-- No part of the text is a hex numeral. -/
def NoRemainder (t : Text) : Prop := ∀ part ∈ t.splitOn 0x7c, ¬lit "0x" <+: part

instance (t : Text) : Decidable (NoRemainder t) := inferInstanceAs (Decidable (∀ part ∈ _, _))

theorem NoRemainder.hex0x_not_mem {t : Text} (h : NoRemainder t) (n : Nat) :
    hex0x n ∉ t.splitOn 0x7c :=
  fun hmem => h _ hmem (List.prefix_append _ _)

/-- A text that starts like a numeral has a part that does. -/
theorem not_noRemainder_of_hex {t : Text} (h : lit "0x" <+: t) : ¬NoRemainder t := by
  rw [lit_hexLead] at h
  obtain ⟨rest, rfl⟩ := h
  obtain ⟨first, others, hsplit⟩ := List.exists_cons_of_ne_nil (List.splitOn_ne_nil 0x7c rest)
  have hparts : ([0x30, 0x78] ++ rest).splitOn 0x7c = (0x30 :: 0x78 :: first) :: others := by
    simp [List.splitOn_cons_eq_if_modifyHead, hsplit]
  intro hno
  refine hno (0x30 :: 0x78 :: first) (by rw [hparts]; exact List.mem_cons_self) ?_
  rw [lit_hexLead]
  exact ⟨first, rfl⟩

/-- A value that is not in the table is printed in hex. -/
theorem enumText_not_noRemainder {table : List FlagEntry} {bound : Nat}
    (htable : ∀ e ∈ table, e.value.toNat < bound) {v : Word} (hv : bound ≤ v.toNat) :
    ¬NoRemainder (enumText table v) := by
  have hfind : table.find? (·.value == v) = none := by
    refine List.find?_eq_none.mpr fun e he heq => ?_
    have hlt := htable e he
    rw [beq_iff_eq.mp heq] at hlt
    omega
  rw [enumText, hfind]
  exact not_noRemainder_of_hex (List.prefix_append _ _)

/-- A bit that no entry of the table has is left over. -/
theorem getLsbD_leftover {table : List FlagEntry} {i : Nat} (skipZero : Bool)
    (h : ∀ e ∈ table, e.value.getLsbD i = false) (v : Word) :
    (leftover skipZero table v).getLsbD i = v.getLsbD i := by
  induction table generalizing v with
  | nil => rfl
  | cons e es ih =>
      have htail := ih fun e' he' => h e' (List.mem_cons_of_mem e he')
      rw [leftover]
      split
      · rw [htail, BitVec.getLsbD_and, BitVec.getLsbD_not, h e List.mem_cons_self]
        by_cases hi : i < 64
        · simp [hi]
        · rw [BitVec.getLsbD_of_ge v i (by omega), Bool.false_and]
      · exact htail v

/-- A value with a bit that no entry has is printed with a remainder. -/
theorem flagsText_not_noRemainder {zero : String} {table : List FlagEntry}
    (hr : readable (⟨0, zero⟩ :: table) = true) (hp : plainTable table = true) {i : Nat}
    (htable : ∀ e ∈ table, e.value.getLsbD i = false) {v : Word} (hv : v.getLsbD i = true) :
    ¬NoRemainder (flagsText zero table v) := by
  intro h
  have hne : v ≠ 0 := fun h0 => by simp [h0] at hv
  have hrest : leftover false table v ≠ 0 := fun h0 => by
    have hbit := getLsbD_leftover false htable v
    rw [h0, hv] at hbit
    simp at hbit
  obtain ⟨vs, hs, -, -⟩ := walk_spells hr table (fun e he => List.mem_cons_of_mem _ he) false v
  rw [restParts, if_pos hrest] at hs
  rw [flagsText_parts hp zero hne, restParts, if_pos hrest] at h
  refine h.hex0x_not_mem (leftover false table v).toNat ?_
  rw [splitOn_joinBars (by simp) hs.noBar]
  exact List.mem_append_right _ (List.mem_singleton_self _)

/-! ## The family -/

/-- The decoders of `int` arguments. -/
inductive IntDecoder where
  | dirfd | rusageWho | wait4Options | waitidOptions | ioctlRequest | fcntlCmd | socketDomain
  | msgFlags | clockid
  deriving DecidableEq, Repr

namespace IntDecoder

variable (t : Tracee) (isFdArg : Bool)

/-- The function a member stands for, called on a register. -/
def run : IntDecoder → Word → OutBuf → OutBuf
  | dirfd => fun raw => formatDirfd t raw isFdArg
  | rusageWho => formatRusageWho
  | wait4Options => formatWait4Options
  | waitidOptions => formatWaitidOptions
  | ioctlRequest => formatIoctlRequest
  | fcntlCmd => formatFcntlCmd
  | socketDomain => formatSocketDomain
  | msgFlags => formatMsgFlags
  | clockid => formatClockid

/-- The text it prints, given room. -/
def text : IntDecoder → Word → Text
  | dirfd => fun raw =>
      if signed 32 (raw.toNat % 2 ^ 32) = atFdcwd then lit "AT_FDCWD" else hexOrFdText t raw isFdArg
  | rusageWho => rusageWhoText
  | wait4Options => flagsText "0" wait4OptionsTable
  | waitidOptions => flagsText "0" waitidOptionsTable
  | ioctlRequest => ioctlRequestText
  | fcntlCmd => enumText fcntlCmdTable
  | socketDomain => enumText socketDomainTable
  | msgFlags => flagsText "0" msgFlagTable
  | clockid => enumText clockidTable

theorem run_prints (d : IntDecoder) (raw : Word) :
    Prints (d.run t isFdArg raw) (d.text t isFdArg raw) := by
  cases d with
  | dirfd =>
      unfold run text formatDirfd
      dsimp only
      split
      · exact prints_snprintf _
      · exact prints_snprintf _
  | rusageWho | ioctlRequest => exact prints_snprintf _
  | wait4Options | waitidOptions | msgFlags => exact formatFlags_prints _ _ raw
  | fcntlCmd | socketDomain | clockid => exact formatEnum_prints _ raw

/-- The values whose two forms have one text: the options of the wait calls are masked as
they are, and a request is compared as it is with the codes of the table. -/
def WidthOk : IntDecoder → BitVec 32 → Prop
  | wait4Options, n | waitidOptions, n => n.msb = false
  | ioctlRequest, n => n.msb = false ∨ ∀ e ∈ ioctlRequestTable, e.value ≠ n.setWidth 64
  | _, _ => True

variable {t isFdArg} {n : BitVec 32}

theorem hexOrFdText_not_noRemainder (raw : Word) : ¬NoRemainder (hexOrFdText t raw isFdArg) := by
  refine not_noRemainder_of_hex ?_
  have hhex : lit "0x" <+: hex0x raw.toNat := List.prefix_append _ _
  unfold hexOrFdText
  split
  · rw [List.append_assoc, List.append_assoc]
    exact hhex.trans (List.prefix_append _ _)
  · exact hhex

/-- A request that is in the table in neither form. -/
theorem ioctlRequestText_low {v w : Word} (hv : ∀ e ∈ ioctlRequestTable, e.value ≠ v)
    (hw : ∀ e ∈ ioctlRequestTable, e.value ≠ w) (h : v.toNat % 2 ^ 32 = w.toNat % 2 ^ 32) :
    ioctlRequestText v = ioctlRequestText w := by
  have hfind : ∀ u : Word, (∀ e ∈ ioctlRequestTable, e.value ≠ u) →
      ioctlRequestTable.find? (·.value == u) = none := fun u hu =>
    List.find?_eq_none.mpr fun e he heq => hu e he (beq_iff_eq.mp heq)
  rw [ioctlRequestText, hfind v hv, ioctlRequestText, hfind w hw, h]

/-- The decoders that narrow the register have one text for both forms, numerals apart. -/
theorem narrowed_text {d : IntDecoder} (hd : d = dirfd ∨ d = rusageWho)
    (h : NoRemainder (d.text t isFdArg (n.setWidth 64))) :
    d.text t isFdArg (n.signExtend 64) = d.text t isFdArg (n.setWidth 64) := by
  have hlow : (n.setWidth 64).toNat % 2 ^ 32 = (n.signExtend 64).toNat % 2 ^ 32 := by
    rw [signExtended_low, toNat_zeroExtended, Nat.mod_eq_of_lt n.isLt]
  rcases hd with rfl | rfl
  · unfold text at h ⊢
    dsimp only at h ⊢
    rw [← hlow]
    split
    · rfl
    · rename_i hfd
      rw [if_neg hfd] at h
      exact absurd h (hexOrFdText_not_noRemainder _)
  · unfold text rusageWhoText at h ⊢
    dsimp only at h ⊢
    rw [← hlow]
    split_ifs at h ⊢ with hself hchildren hthread
    · rfl
    · rfl
    · rfl
    · exact absurd h (not_noRemainder_of_hex (List.prefix_append _ _))

/-- With bit 31 set, a request has a name in one form only. -/
theorem ioctl_text_iff (hmsb : n.msb = true) :
    ioctlRequestText (n.signExtend 64) = ioctlRequestText (n.setWidth 64) ↔
      ∀ e ∈ ioctlRequestTable, e.value ≠ n.setWidth 64 := by
  have htable : ∀ e ∈ ioctlRequestTable, e.value.msb = false := by decide
  have hsign : ∀ e ∈ ioctlRequestTable, e.value ≠ n.signExtend 64 := fun e he heq => by
    have hbit := htable e he
    rw [heq] at hbit
    simp [BitVec.msb_signExtend, hmsb] at hbit
  have hlow : (n.signExtend 64).toNat % 2 ^ 32 = (n.setWidth 64).toNat % 2 ^ 32 := by
    rw [signExtended_low, toNat_zeroExtended, Nat.mod_eq_of_lt n.isLt]
  constructor
  · intro h e he heq
    obtain ⟨e', hfind⟩ : ∃ e', ioctlRequestTable.find? (·.value == n.setWidth 64) = some e' :=
      Option.isSome_iff_exists.mp (List.find?_isSome.mpr ⟨e, he, by simp [heq]⟩)
    refine ioctlNames_not_ioc e' (List.mem_of_find?_eq_some hfind) ?_
    rw [ioctlRequestText, ioctlRequestText, hfind] at h
    rw [List.find?_eq_none.mpr fun e he heq => hsign e he (beq_iff_eq.mp heq)] at h
    rw [← show _ = lit e'.name from h]
    simp only [List.append_assoc]
    exact List.prefix_append _ _
  · exact fun h => ioctlRequestText_low hsign h hlow

end IntDecoder

/-- Each of these decoders prints one text, into every array, and the two forms of an
argument that the zero-extended form names without a remainder have the same text exactly
when the options of a wait call, or the code of a known request, leave bit 31 clear. -/
theorem intDecoders_width_iff (t : Tracee) (isFdArg : Bool) (d : IntDecoder) (n : BitVec 32)
    (h : NoRemainder (d.text t isFdArg (n.setWidth 64))) :
    (∀ raw, Prints (d.run t isFdArg raw) (d.text t isFdArg raw)) ∧
      (d.text t isFdArg (n.signExtend 64) = d.text t isFdArg (n.setWidth 64) ↔ d.WidthOk n) := by
  refine ⟨d.run_prints t isFdArg, ?_⟩
  cases hmsb : n.msb with
  | false =>
      rw [(signExtended_eq_iff n).mpr hmsb]
      refine iff_of_true rfl ?_
      cases d <;> simp [IntDecoder.WidthOk, hmsb]
  | true =>
      have hne : n.signExtend 64 ≠ n.setWidth 64 := fun heq => by
        rw [signExtended_eq_iff, hmsb] at heq
        exact absurd heq (by decide)
      have hle := le_zeroExtended n hmsb
      cases d with
      | dirfd => exact iff_of_true (IntDecoder.narrowed_text (.inl rfl) h) trivial
      | rusageWho => exact iff_of_true (IntDecoder.narrowed_text (.inr rfl) h) trivial
      | wait4Options =>
          exact iff_of_false (fun heq => hne (FlagDecoder.wait4Options.text_injective heq))
            (by simp [IntDecoder.WidthOk, hmsb])
      | waitidOptions =>
          exact iff_of_false (fun heq => hne (FlagDecoder.waitidOptions.text_injective heq))
            (by simp [IntDecoder.WidthOk, hmsb])
      | ioctlRequest =>
          simp only [IntDecoder.WidthOk, hmsb, Bool.true_eq_false, false_or]
          exact IntDecoder.ioctl_text_iff hmsb
      | fcntlCmd => exact absurd h (enumText_not_noRemainder (by decide) hle)
      | socketDomain => exact absurd h (enumText_not_noRemainder (by decide) hle)
      | clockid => exact absurd h (enumText_not_noRemainder (by decide) hle)
      | msgFlags =>
          refine absurd h (flagsText_not_noRemainder (i := 31) FlagDecoder.msgFlags.names_readable
            (plainTable_tail FlagDecoder.msgFlags.names_plain).2 (by decide) ?_)
          rw [BitVec.getLsbD_setWidth]
          simpa [BitVec.msb_eq_getLsbD_last] using hmsb

/-- `AT_FDCWD`. -/
theorem intDecoders_width_fdcwd :
    NoRemainder (IntDecoder.dirfd.text ⟨0, fun _ => none, fun _ => none⟩ false
        ((0xffffff9c : BitVec 32).setWidth 64)) ∧
      IntDecoder.dirfd.text ⟨0, fun _ => none, fun _ => none⟩ false
          ((0xffffff9c : BitVec 32).signExtend 64) =
        IntDecoder.dirfd.text ⟨0, fun _ => none, fun _ => none⟩ false
          ((0xffffff9c : BitVec 32).setWidth 64) := by
  have h : NoRemainder (IntDecoder.dirfd.text ⟨0, fun _ => none, fun _ => none⟩ false
      ((0xffffff9c : BitVec 32).setWidth 64)) := by with_unfolding_all decide
  exact ⟨h, (intDecoders_width_iff _ _ _ _ h).2.mpr trivial⟩

/-- `__WCLONE` has no remainder in one form and half a register of it in the other. -/
theorem wclone_width :
    NoRemainder (flagsText "0" wait4OptionsTable ((0x80000000 : BitVec 32).setWidth 64)) ∧
      flagsText "0" wait4OptionsTable ((0x80000000 : BitVec 32).setWidth 64) = lit "__WCLONE" ∧
      flagsText "0" wait4OptionsTable ((0x80000000 : BitVec 32).signExtend 64) =
        lit "__WCLONE|0xffffffff00000000" := by
  with_unfolding_all decide

end MiniStrace
