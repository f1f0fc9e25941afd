/-
  Decoders/MsgFlags.lean --- `msg_flags`, as an argument and in a message header.

  TWO ARRAYS.  The flags argument of the message calls is decoded into an argument slot
  of 1024 characters.  In a `struct msghdr` the same decoder prints the same flags into an
  array of 128 first, and the header shows what is left there.

  THE WIDTH.  How long the text is can be added up without printing it: each flag that is
  set takes its name and a bar, and so does the numeral of the bits without a name.  The
  thirteen names alone come to 148 characters.
-/
import MiniStrace.Decoders.Embedded
import MiniStrace.Decoders.Lossless

set_option autoImplicit false

namespace MiniStrace

open CLib OutBuf

/-! ## The width of the text -/

/-- The bits without a name. -/
def msgFlagsRest (v : Word) : Word := msgFlagTable.foldl (fun v e => v &&& ~~~e.value) v

/-- The characters of the names of the flags that are set and of the numeral, with a bar
for each. -/
def msgFlagsWidth (v : Word) : Nat :=
  ((msgFlagTable.filter fun e => decide (v &&& e.value ≠ 0)).map
      fun e => (lit e.name).length + 1).sum +
    if msgFlagsRest v ≠ 0 then (hex0x (msgFlagsRest v).toNat).length + 1 else 0

/-- The flags are thirteen single bits. -/
theorem msgFlags_walk (v : Word) :
    msgFlagTable.filter (fun e => decide (v &&& e.value ≠ 0)) = hits false msgFlagTable v ∧
      msgFlagsRest v = leftover false msgFlagTable v :=
  peel_eq_walk (by decide) (by simp [Apart, msgFlagTable]) v

theorem msgFlagsText_length {v : Word} (hv : v ≠ 0) :
    (flagsText "0" msgFlagTable v).length + 1 = msgFlagsWidth v := by
  have hplain : plainTable msgFlagTable = true := by with_unfolding_all decide
  obtain ⟨hhits, hrest⟩ := msgFlags_walk v
  have hne : entryNames (hits false msgFlagTable v) ++ restParts (leftover false msgFlagTable v) ≠
      [] := fun hnil => by
    obtain ⟨vs, hs, hor, -⟩ := walk_spells FlagDecoder.msgFlags.names_readable msgFlagTable
      (fun e he => List.mem_cons_of_mem _ he) false v
    have hvs := hs.values
    rw [hnil, List.map_nil, eq_comm, List.map_eq_nil_iff] at hvs
    exact hv (by rw [← hor, hvs]; rfl)
  rw [flagsText_parts hplain "0" hv, length_joinBars hne, msgFlagsWidth, hhits, hrest,
    List.map_append, List.sum_append, entryNames, List.map_map, restParts]
  congr 1
  split <;> simp

theorem msgFlagsText_fits_iff (v : Word) :
    (flagsText "0" msgFlagTable v).length ≤ 127 ↔ msgFlagsWidth v ≤ 128 := by
  by_cases hv : v = 0
  · subst hv
    with_unfolding_all decide
  · rw [← msgFlagsText_length hv]
    omega

/-! ## The message header -/

/-- The text of a message header before `msg_flags`. -/
def msghdrHead (host : Host) (m : Mem) (totalBytes : Int) (hdr : Text) : Text :=
  lit "\x7bmsg_name=" ++ msgNameText host m hdr ++ lit ", msg_iov=" ++
    (formatIovecBuf host m (BitVec.ofNat 64 (field hdr 16 8)) (field hdr 24 8) totalBytes
      (new strArgBufLen host.junk)).str ++ lit ", msg_control=" ++
    (if BitVec.ofNat 64 (field hdr 32 8) ≠ 0 ∧ field hdr 40 8 > 0 then
      (formatCmsg host m (BitVec.ofNat 64 (field hdr 32 8)) (field hdr 40 8)
        (new strArgBufLen host.junk)).out.str
    else lit "NULL")

/-- The value of `msg_flags`. -/
def msgFlagsOf (hdr : Text) : Word := BitVec.ofNat 64 (field hdr 48 4)

/-- The text of the flags argument of a message call. -/
def msgFlagsArg (host : Host) (v : Word) : Text :=
  (formatMsgFlags v (new strArgBufLen host.junk)).str

theorem msgFlags_str (v : Word) {size : Nat} (hsize : size < 2 ^ 64) (hpos : 0 < size)
    (init : Nat → Byte) : (formatMsgFlags v (new size init)).str =
      (flagsText "0" msgFlagTable v).take (size - 1) := by
  have hplain : Plain (flagsText "0" msgFlagTable v) :=
    flagsText_plain (by with_unfolding_all decide) (by with_unfolding_all decide) v
  exact (formatFlags_prints "0" msgFlagTable v).str_eq hsize hpos hplain.ne_nil
    (fun _ hc => hplain.clean.ne_zero hc) init

/-- The small array keeps all of the text exactly when it has room for it. -/
theorem msgFlags_same_iff (host : Host) (v : Word) :
    (formatMsgFlags v (new 128 host.junk)).str = msgFlagsArg host v ↔ msgFlagsWidth v ≤ 128 := by
  rw [← msgFlagsText_fits_iff, msgFlagsArg, msgFlags_str v (by decide) (by decide),
    msgFlags_str v strArgBufLen_lt (by decide)]
  constructor
  · intro h
    have hlen := congrArg List.length h
    have hmax : strArgBufLen = 1024 := rfl
    rw [List.length_take, List.length_take] at hlen
    omega
  · intro h
    rw [List.take_of_length_le h, List.take_of_length_le (le_trans h (by decide))]

theorem msghdrText_eq (host : Host) (m : Mem) (totalBytes : Int) (hdr : Text) :
    msghdrText host m totalBytes hdr = msghdrHead host m totalBytes hdr ++ lit ", msg_flags=" ++
      (formatMsgFlags (msgFlagsOf hdr) (new 128 host.junk)).str ++ lit "\x7d" := by
  simp only [msghdrText, msgRestText, msghdrHead, msgFlagsOf, List.append_assoc]

theorem msghdrText_ne_zero (host : Host) (m : Mem) (totalBytes : Int) (hdr : Text) :
    ∀ c ∈ msghdrText host m totalBytes hdr, c ≠ 0 := by
  have hopen : Clean (lit "\x7bmsg_name=") := by with_unfolding_all decide
  intro c hc
  rcases List.mem_append.mp hc with hc | hc
  · rcases List.mem_append.mp hc with hc | hc
    · exact hopen.ne_zero hc
    · unfold msgNameText at hc
      split at hc
      · exact str_ne_zero hc
      · exact plain_null.clean.ne_zero hc
  · exact (msgRestText_clean host m totalBytes hdr).ne_zero hc

/-- What the argument slot of a readable header holds. -/
theorem formatMsghdr_str (host : Host) (m : Mem) {addr : Word} (totalBytes : Int) (ha : addr ≠ 0)
    (hread : 56 ≤ (readChildRaw m addr 56).length) (init : Nat → Byte) :
    (formatMsghdr host m addr totalBytes (new strArgBufLen init)).str =
      cut strArgBufLen (msghdrText host m totalBytes (readChildRaw m addr 56)) := by
  have htext : structText m addr 56 (msghdrText host m totalBytes) =
      msghdrText host m totalBytes (readChildRaw m addr 56) := by
    rw [structText, if_neg ha]
    exact if_neg (not_lt.mpr hread)
  have hopen : lit "\x7bmsg_name=" ≠ [] := by with_unfolding_all decide
  rw [(formatMsghdr_fills host m addr totalBytes).str_eq_cut (by decide) strArgBufLen_lt (by decide)
    (by rw [htext]; simp [msghdrText, hopen]), htext]

/-- A readable header has room for its text, with the flags as the flags argument shows
them. -/
structure HeaderFits (host : Host) (m : Mem) (addr : Word) (totalBytes : Int) : Prop where
  addr_ne : addr ≠ 0
  readable : 56 ≤ (readChildRaw m addr 56).length
  room : (msghdrHead host m totalBytes (readChildRaw m addr 56) ++ lit ", msg_flags=" ++
    msgFlagsArg host (msgFlagsOf (readChildRaw m addr 56)) ++ lit "\x7d").length < strArgBufLen

theorem HeaderFits.str {host : Host} {m : Mem} {addr : Word} {totalBytes : Int}
    (h : HeaderFits host m addr totalBytes) (init : Nat → Byte) :
    (formatMsghdr host m addr totalBytes (new strArgBufLen init)).str =
      msghdrHead host m totalBytes (readChildRaw m addr 56) ++ lit ", msg_flags=" ++
        (formatMsgFlags (msgFlagsOf (readChildRaw m addr 56)) (new 128 host.junk)).str ++
        lit "\x7d" := by
  rw [formatMsghdr_str host m totalBytes h.addr_ne h.readable, ← msghdrText_eq]
  refine cut_of_lt (msghdrText_ne_zero host m totalBytes _) ?_
  -- what the header shows of the flags is no longer than the argument
  have hshorter :
      (formatMsgFlags (msgFlagsOf (readChildRaw m addr 56)) (new 128 host.junk)).str.length ≤
        (msgFlagsArg host (msgFlagsOf (readChildRaw m addr 56))).length := by
    rw [msgFlagsArg, msgFlags_str _ (by decide) (by decide), msgFlags_str _ strArgBufLen_lt
      (by decide), List.length_take, List.length_take]
    exact min_le_min_right _ (by decide)
  have hroom := h.room
  rw [msghdrText_eq]
  simp only [List.length_append] at hroom ⊢
  omega

/-- A readable header with room for its text shows its flags as the flags argument shows
them exactly when their names and numeral come to at most 127 characters. -/
theorem msghdr_flags_shown_iff (host : Host) (m : Mem) (addr : Word) (totalBytes : Int)
    (init : Nat → Byte) (h : HeaderFits host m addr totalBytes) :
    (formatMsghdr host m addr totalBytes (new strArgBufLen init)).str =
        msghdrHead host m totalBytes (readChildRaw m addr 56) ++ lit ", msg_flags=" ++
          msgFlagsArg host (msgFlagsOf (readChildRaw m addr 56)) ++ lit "\x7d" ↔
      msgFlagsWidth (msgFlagsOf (readChildRaw m addr 56)) ≤ 128 := by
  rw [h.str, List.append_left_inj, List.append_right_inj]
  exact msgFlags_same_iff host _

/-! ## Two headers -/

/-- A message header at 0x1000 that holds nothing but `msg_flags`. -/
def flagsHeader (flags : Nat) : Mem := fun a =>
  some (if 0x1030 ≤ a.toNat ∧ a.toNat < 0x1034 then
    UInt8.ofNat (flags / 256 ^ (a.toNat - 0x1030)) else 0)

theorem msghdrHead_bare (host : Host) (m : Mem) (totalBytes : Int) {hdr : Text}
    (hname : field hdr 0 8 = 0) (hiov : field hdr 16 8 = 0) (hcontrol : field hdr 32 8 = 0) :
    msghdrHead host m totalBytes hdr =
      lit "\x7bmsg_name=NULL, msg_iov=NULL, msg_control=NULL" := by
  have hnull : (formatIovecBuf host m 0#64 (field hdr 24 8) totalBytes
      (new strArgBufLen host.junk)).str = lit "NULL" :=
    (prints_snprintf (lit "NULL")).str_of_lt strArgBufLen_lt (by with_unfolding_all decide)
      plain_null.ne_nil (fun _ hc => plain_null.clean.ne_zero hc) host.junk
  have hlit : lit "\x7bmsg_name=" ++ lit "NULL" ++ lit ", msg_iov=" ++ lit "NULL" ++
      lit ", msg_control=" ++ lit "NULL" =
      lit "\x7bmsg_name=NULL, msg_iov=NULL, msg_control=NULL" := by with_unfolding_all decide
  rw [← hlit, msghdrHead, msgNameText, hname, hiov, hcontrol, hnull]
  simp

/-- A header with nothing but flags has room for them. -/
theorem headerFits_bare {m : Mem} {hdr : Text} (h : readChildRaw m 0x1000 56 = hdr)
    (hlen : 56 ≤ hdr.length) (hname : field hdr 0 8 = 0) (hiov : field hdr 16 8 = 0)
    (hcontrol : field hdr 32 8 = 0) (hwidth : msgFlagsWidth (msgFlagsOf hdr) ≤ 900) :
    HeaderFits default m 0x1000 0 := by
  refine ⟨by decide, h ▸ hlen, ?_⟩
  have hlit : (lit "\x7bmsg_name=NULL, msg_iov=NULL, msg_control=NULL").length = 46 ∧
      (lit ", msg_flags=").length = 12 ∧ (lit "\x7d").length = 1 := by with_unfolding_all decide
  have hmax : strArgBufLen = 1024 := rfl
  have hflags : (msgFlagsArg default (msgFlagsOf hdr)).length ≤ 900 := by
    rw [msgFlagsArg, msgFlags_str _ strArgBufLen_lt (by decide), List.length_take]
    refine le_trans (min_le_right _ _) ?_
    by_cases hv : msgFlagsOf hdr = 0
    · rw [hv]
      with_unfolding_all decide
    · have hlen := msgFlagsText_length hv
      omega
  rw [h, msghdrHead_bare _ _ _ hname hiov hcontrol]
  simp only [List.length_append, hlit]
  omega

theorem msghdr_flags_oob :
    HeaderFits default (flagsHeader 1) 0x1000 0 ∧
      (formatMsghdr default (flagsHeader 1) 0x1000 0 (new strArgBufLen fun _ => 0)).str =
        msghdrHead default (flagsHeader 1) 0 (readChildRaw (flagsHeader 1) 0x1000 56) ++
          lit ", msg_flags=" ++
          msgFlagsArg default (msgFlagsOf (readChildRaw (flagsHeader 1) 0x1000 56)) ++
          lit "\x7d" := by
  have hread : readChildRaw (flagsHeader 1) 0x1000 56 =
      List.replicate 48 0 ++ [1, 0, 0, 0] ++ List.replicate 4 0 := by with_unfolding_all decide
  have h : HeaderFits default (flagsHeader 1) 0x1000 0 :=
    headerFits_bare hread (by decide) (by decide) (by decide) (by decide)
      (by with_unfolding_all decide)
  refine ⟨h, (msghdr_flags_shown_iff _ _ _ _ _ h).mpr ?_⟩
  rw [hread]
  with_unfolding_all decide

/-- With all thirteen flags set, the header shows less of them than the argument does. -/
theorem msghdr_flags_cut :
    HeaderFits default (flagsHeader 0x4000e9ef) 0x1000 0 ∧
      (formatMsghdr default (flagsHeader 0x4000e9ef) 0x1000 0 (new strArgBufLen fun _ => 0)).str ≠
        msghdrHead default (flagsHeader 0x4000e9ef) 0
            (readChildRaw (flagsHeader 0x4000e9ef) 0x1000 56) ++
          lit ", msg_flags=" ++
          msgFlagsArg default (msgFlagsOf (readChildRaw (flagsHeader 0x4000e9ef) 0x1000 56)) ++
          lit "\x7d" := by
  have hread : readChildRaw (flagsHeader 0x4000e9ef) 0x1000 56 =
      List.replicate 48 0 ++ [0xef, 0xe9, 0, 0x40] ++ List.replicate 4 0 := by
    with_unfolding_all decide
  have h : HeaderFits default (flagsHeader 0x4000e9ef) 0x1000 0 :=
    headerFits_bare hread (by decide) (by decide) (by decide) (by decide)
      (by with_unfolding_all decide)
  have hwidth : ¬msgFlagsWidth (msgFlagsOf (readChildRaw (flagsHeader 0x4000e9ef) 0x1000 56)) ≤
      128 := by
    rw [hread]
    with_unfolding_all decide
  refine ⟨h, fun heq => hwidth ?_⟩
  rw [h.str, List.append_left_inj, List.append_right_inj] at heq
  exact (msgFlags_same_iff default _).mp heq

end MiniStrace
