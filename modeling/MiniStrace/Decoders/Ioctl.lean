/-
  Decoders/Ioctl.lean --- the request a text of `format_ioctl_request` stands for.

  THE READER.  A text is either a name of the table, which stands for the value beside it,
  or a call of `_IOC` on four fields, which stands for the fields put back in their places:
  the direction from bit 30 on, the size from bit 16, the type from bit 8 and the number
  below.  The reader is a relation, given without reference to the decoder.

  WHY IT IS UNIQUE.  The names are distinct, none of them starts like a call, and the commas
  of a call stand behind fields that hold none.
-/
import MiniStrace.Decoders.Flags

set_option autoImplicit false

namespace MiniStrace

open CLib OutBuf

/-! ## Fields -/

/-- `_IOC(dir, type, nr, size)`. -/
def iocEncode (dir type nr size : Nat) : Nat :=
  dir <<< 30 ||| size <<< 16 ||| type <<< 8 ||| nr

/-- The call that is printed for a request without a name. -/
def iocText (dir type nr size : Nat) : Text :=
  lit "_IOC(" ++ lit (iocDirName dir) ++ lit ", 0x" ++ hex type ++ lit ", 0x" ++ hex nr ++
    lit ", " ++ dec size ++ lit ")"

/-- Fields within their widths do not overlap. -/
theorem iocEncode_eq {dir type nr size : Nat} (hsize : size < 2 ^ 14) (htype : type < 2 ^ 8)
    (hnr : nr < 2 ^ 8) :
    iocEncode dir type nr size = dir * 2 ^ 30 + size * 2 ^ 16 + type * 2 ^ 8 + nr := by
  have hlow : type <<< 8 ||| nr = type * 2 ^ 8 + nr := by
    rw [← Nat.shiftLeft_add_eq_or_of_lt hnr, Nat.shiftLeft_eq]
  have hmid : size <<< 16 ||| (type * 2 ^ 8 + nr) = size * 2 ^ 16 + (type * 2 ^ 8 + nr) := by
    rw [← Nat.shiftLeft_add_eq_or_of_lt (by omega), Nat.shiftLeft_eq]
  rw [iocEncode, Nat.lor_assoc, Nat.lor_assoc, hlow, hmid,
    ← Nat.shiftLeft_add_eq_or_of_lt (by omega), Nat.shiftLeft_eq]
  omega

/-- The fields the decoder takes out of a request are those it is made of. -/
theorem iocEncode_fields {req : Nat} (h : req < 2 ^ 32) :
    iocEncode (req / 2 ^ 30 % 4) (req / 2 ^ 8 % 2 ^ 8) (req % 2 ^ 8) (req / 2 ^ 16 % 2 ^ 14) =
      req := by
  rw [iocEncode_eq (Nat.mod_lt _ (by decide)) (Nat.mod_lt _ (by decide))
    (Nat.mod_lt _ (by decide))]
  omega

/-- The four directions have different names, none of which is that of the last branch. -/
theorem iocDirName_of_lt :
    ∀ dir < 4, iocDirName dir ≠ "0" ∧ (0x2c : Byte) ∉ lit (iocDirName dir) ∧
      ∀ dir' < 4, lit (iocDirName dir) = lit (iocDirName dir') → dir = dir' := by
  with_unfolding_all decide

theorem iocText_injective {dir type nr size dir' type' nr' size' : Nat} (hdir : dir < 4)
    (hdir' : dir' < 4) (h : iocText dir type nr size = iocText dir' type' nr' size') :
    dir = dir' ∧ type = type' ∧ nr = nr' ∧ size = size' := by
  have hcomma : lit ", 0x" = 0x2c :: lit " 0x" ∧ lit ", " = 0x2c :: lit " " := by
    with_unfolding_all decide
  simp only [iocText, hcomma, List.append_assoc, List.cons_append] at h
  obtain ⟨hname, h⟩ := append_sep_inj (iocDirName_of_lt dir hdir).2.1
    (iocDirName_of_lt dir' hdir').2.1 (List.append_cancel_left h)
  obtain ⟨htype, h⟩ := hex_append_inj (by decide) (List.append_cancel_left h)
  obtain ⟨hnr, h⟩ := hex_append_inj (by decide) (List.append_cancel_left h)
  have hsize := List.append_cancel_right (List.append_cancel_left h)
  exact ⟨(iocDirName_of_lt dir hdir).2.2 dir' hdir' hname, htype, hnr, dec_injective hsize⟩

/-! ## Names -/

/-- No name of the table starts like a call of `_IOC`. -/
theorem ioctlNames_not_ioc : ∀ e ∈ ioctlRequestTable, ¬lit "_IOC(" <+: lit e.name := by
  with_unfolding_all decide

/-- The names and the values of the table are pairwise distinct. -/
theorem ioctlRequestTable_distinct :
    (ioctlRequestTable.map fun e => lit e.name).Nodup ∧
      (ioctlRequestTable.map (·.value)).Nodup := by
  with_unfolding_all decide

theorem ioc_isPrefix_iocText (dir type nr size : Nat) :
    lit "_IOC(" <+: iocText dir type nr size := by
  simp only [iocText, List.append_assoc]
  exact List.prefix_append _ _

theorem ioctlRequestText_of_not_mem {value : Word} (h : ∀ e ∈ ioctlRequestTable, e.value ≠ value) :
    ioctlRequestText value = iocText (value.toNat % 2 ^ 32 / 2 ^ 30 % 4)
      (value.toNat % 2 ^ 32 / 2 ^ 8 % 2 ^ 8) (value.toNat % 2 ^ 32 % 2 ^ 8)
      (value.toNat % 2 ^ 32 / 2 ^ 16 % 2 ^ 14) := by
  rw [ioctlRequestText, List.find?_eq_none.mpr fun e he heq => h e he (beq_iff_eq.mp heq)]
  rfl

/-! ## The reader -/

/-- The text stands for the request. -/
inductive IoctlReads (t : Text) (req : BitVec 32) : Prop
  | named {e : FlagEntry} (mem : e ∈ ioctlRequestTable) (text : t = lit e.name)
      (value : e.value = req.setWidth 64)
  | fields {dir type nr size : Nat} (known : dir < 4) (text : t = iocText dir type nr size)
      (value : iocEncode dir type nr size = req.toNat)

theorem IoctlReads.unique {t : Text} {req req' : BitVec 32} (h : IoctlReads t req)
    (h' : IoctlReads t req') : req = req' := by
  cases h with
  | named mem text value =>
      cases h' with
      | named mem' text' value' =>
          have hentry := List.inj_on_of_nodup_map ioctlRequestTable_distinct.1 mem mem'
            (text.symm.trans text')
          rw [hentry, value'] at value
          have hwide := congrArg (BitVec.setWidth 32) value
          simpa using hwide.symm
      | fields known' text' value' =>
          exact absurd (text ▸ text' ▸ ioc_isPrefix_iocText _ _ _ _) (ioctlNames_not_ioc _ mem)
  | fields known text value =>
      cases h' with
      | named mem' text' value' =>
          exact absurd (text' ▸ text ▸ ioc_isPrefix_iocText _ _ _ _) (ioctlNames_not_ioc _ mem')
      | fields known' text' value' =>
          obtain ⟨rfl, rfl, rfl, rfl⟩ := iocText_injective known known' (text.symm.trans text')
          exact BitVec.toNat_inj.mp (value.symm.trans value')

theorem ioctlRequestText_reads (req : BitVec 32) :
    IoctlReads (ioctlRequestText (req.setWidth 64)) req := by
  cases hfind : ioctlRequestTable.find? (·.value == req.setWidth 64) with
  | some e =>
      have hvalue := List.find?_some hfind
      refine .named (List.mem_of_find?_eq_some hfind) ?_ (by simpa using hvalue)
      rw [ioctlRequestText, hfind]
  | none =>
      have hnot : ∀ e ∈ ioctlRequestTable, e.value ≠ req.setWidth 64 := fun e he heq => by
        simpa [heq] using List.find?_eq_none.mp hfind e he
      have hlow : (req.setWidth 64).toNat % 2 ^ 32 = req.toNat := by
        rw [BitVec.toNat_setWidth]
        omega
      refine .fields (Nat.mod_lt _ (by decide)) (ioctlRequestText_of_not_mem hnot) ?_
      rw [hlow]
      exact iocEncode_fields req.isLt

/-- A request is printed as a text that stands for it and for no other request, and the
last branch of the direction is never taken. -/
theorem ioctlRequest_read_back (req : BitVec 32) :
    Prints (formatIoctlRequest (req.setWidth 64)) (ioctlRequestText (req.setWidth 64)) ∧
      IoctlReads (ioctlRequestText (req.setWidth 64)) req ∧
      (∀ req' : BitVec 32, IoctlReads (ioctlRequestText (req.setWidth 64)) req' → req' = req) ∧
      iocDirName (req.toNat / 2 ^ 30 % 4) ≠ "0" ∧
      (ioctlRequestTable.map (·.value)).Nodup ∧
      ∀ req' : BitVec 32, req' ≠ req →
        ioctlRequestText (req'.setWidth 64) ≠ ioctlRequestText (req.setWidth 64) := by
  have hreads := ioctlRequestText_reads req
  refine ⟨prints_snprintf _, hreads, fun req' h => h.unique hreads,
    (iocDirName_of_lt _ (Nat.mod_lt _ (by decide))).1, ioctlRequestTable_distinct.2, ?_⟩
  intro req' hne heq
  have hreads' := ioctlRequestText_reads req'
  rw [heq] at hreads'
  exact hne (hreads'.unique hreads)

/-- `BLKGETSIZE64`. -/
example : ioctlRequestText 0x80081272 = lit "_IOC(_IOC_READ, 0x12, 0x72, 8)" := by
  with_unfolding_all decide

end MiniStrace
