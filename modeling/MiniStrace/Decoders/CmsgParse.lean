/-
  Decoders/CmsgParse.lean --- `format_cmsg` as the reader of a format.

  THE FORMAT.  Control data is a sequence of messages, each a header of sixteen bytes and its
  data, filled up to a multiple of eight.  `control` writes such a sequence the way
  `sendmsg` callers do; what stands in the gaps, and in a tail too short for a header, is
  left open.

  THE READER.  On everything that `control` writes, the walk of `format_cmsg` finds exactly
  the messages, and prints each by its own level, type and data.
-/
import MiniStrace.Lib.Listing
import MiniStrace.Decoders.CmsgBounds
import MiniStrace.Decoders.Sockaddr
import MiniStrace.Decoders.Embedded

set_option autoImplicit false

namespace MiniStrace

open CLib OutBuf

/-! ## Little-endian integers -/

/-- `n` in `k` bytes. -/
def leBytes : Nat → Nat → Text
  | 0, _ => []
  | k + 1, n => UInt8.ofNat (n % 256) :: leBytes k (n / 256)

@[simp] theorem length_leBytes (k n : Nat) : (leBytes k n).length = k := by
  induction k generalizing n with
  | zero => rfl
  | succ k ih => rw [leBytes, List.length_cons, ih]

theorem leNat_cons (b : Byte) (bs : Text) : leNat (b :: bs) = b.toNat + 256 * leNat bs := by
  rw [leNat, List.map_cons, Nat.ofDigits_cons]
  rfl

theorem leNat_leBytes {k n : Nat} (h : n < 256 ^ k) : leNat (leBytes k n) = n := by
  induction k generalizing n with
  | zero =>
      rw [Nat.pow_zero, Nat.lt_one_iff] at h
      rw [h]
      rfl
  | succ k ih =>
      have hdiv : n / 256 < 256 ^ k := by
        rw [Nat.div_lt_iff_lt_mul (by decide), ← Nat.pow_succ]
        exact h
      rw [leBytes, leNat_cons, ih hdiv, UInt8.toNat_ofNat', Nat.mod_mod_of_dvd _ (by decide)]
      omega

/-! ## Messages -/

/-- A message: its header but for the length, its data, and what fills it up. -/
structure CMessage where
  level : BitVec 32
  type : BitVec 32
  data : Text
  gap : Text

namespace CMessage

/-- `cmsg_len` -/
def len (a : CMessage) : Nat := cmsgHdrSize + a.data.length

/-- The gap reaches to where the next header must start. -/
def Aligned (a : CMessage) : Prop := a.len + a.gap.length = ControlBuf.cmsgAlign a.len

/-- The header and the data. -/
def bytes (a : CMessage) : Text :=
  leBytes 8 a.len ++ (leBytes 4 a.level.toNat ++ (leBytes 4 a.type.toNat ++ a.data))

/-- The descriptors of an `SCM_RIGHTS` message. -/
def fds (a : CMessage) : List Int :=
  (List.range (a.data.length / 4)).map fun i => fieldInt a.data (i * 4) 4

/-- How the message is to be shown. -/
def text (a : CMessage) : Text :=
  lit "\x7bcmsg_level=" ++ levelText a.level.toNat ++
    if a.level.toNat = solSocket ∧ a.type.toNat = scmRights then
      lit ", cmsg_type=SCM_RIGHTS, cmsg_data=[" ++
        List.intercalate (lit ", ") (a.fds.map decInt) ++ lit "]\x7d"
    else if a.level.toNat = solSocket ∧ a.type.toNat = scmCredentials ∧ 12 ≤ a.data.length then
      lit ", cmsg_type=SCM_CREDENTIALS, cmsg_data=\x7bpid=" ++ decInt (fieldInt a.data 0 4) ++
        lit ", uid=" ++ dec (field a.data 4 4) ++ lit ", gid=" ++ dec (field a.data 8 4) ++
        lit "\x7d\x7d"
    else
      lit ", cmsg_type=0x" ++ hex a.type.toNat ++ lit ", cmsg_len=" ++ dec a.len ++ lit "\x7d"

theorem length_bytes (a : CMessage) : a.bytes.length = a.len := by
  simp only [bytes, List.length_append, length_leBytes, len, cmsgHdrSize]
  omega

end CMessage

/-- Control data: the messages, and a tail in which there is no room for a header.  The last
message need not be filled up. -/
def control : List CMessage → Text → Text
  | [], tail => tail
  | [a], tail => a.bytes ++ tail
  | a :: b :: rest, tail => a.bytes ++ (a.gap ++ control (b :: rest) tail)

/-! ## One message in the buffer -/

section Message

variable {c : ControlBuf} {before after : Text}

theorem load_eq {x : Text} (h : c.bytes = before ++ (x ++ after)) :
    c.load before.length x.length = x := by
  refine List.ext_getElem (by simp [ControlBuf.load]) fun i h₁ h₂ => ?_
  have hget : c.bytes[before.length + i]? = some x[i] := by
    rw [h, List.getElem?_append_right (Nat.le_add_right _ _), Nat.add_sub_cancel_left,
      List.getElem?_append_left h₂, List.getElem?_eq_getElem h₂]
  simp [ControlBuf.load, hget]

/-- A part of a part. -/
theorem load_part {x : Text} (h : c.bytes = before ++ (x ++ after)) {off n : Nat}
    (hn : off + n ≤ x.length) :
    c.load (before.length + off) n = (x.drop off).take n := by
  have hsplit : c.bytes = (before ++ x.take off) ++ ((x.drop off).take n ++
      ((x.drop off).drop n ++ after)) := by
    rw [h]
    simp only [List.append_assoc]
    rw [← List.append_assoc ((x.drop off).take n), List.take_append_drop,
      ← List.append_assoc (x.take off), List.take_append_drop]
  have hload := load_eq hsplit
  rw [List.length_append, List.length_take, List.length_take, List.length_drop] at hload
  rw [← hload]
  congr 1 <;> omega

theorem leNat_load_leBytes {k n : Nat} (h : c.bytes = before ++ (leBytes k n ++ after))
    (hn : n < 256 ^ k) : leNat (c.load before.length k) = n := by
  have hload := load_eq h
  rw [length_leBytes] at hload
  rw [hload, leNat_leBytes hn]

variable {a : CMessage}

theorem header_of_bytes (h : c.bytes = before ++ (a.bytes ++ after)) (hlen : a.len < 2 ^ 64) :
    c.cmsgLen before.length = a.len ∧ c.cmsgLevel before.length = a.level.toNat ∧
      c.cmsgType before.length = a.type.toNat := by
  have hlenAt : c.bytes = before ++ (leBytes 8 a.len ++ (leBytes 4 a.level.toNat ++
      (leBytes 4 a.type.toNat ++ (a.data ++ after)))) := by
    simp only [h, CMessage.bytes, List.append_assoc]
  have hlevelAt : c.bytes = (before ++ leBytes 8 a.len) ++ (leBytes 4 a.level.toNat ++
      (leBytes 4 a.type.toNat ++ (a.data ++ after))) := by
    rw [hlenAt, List.append_assoc]
  have htypeAt : c.bytes = (before ++ leBytes 8 a.len ++ leBytes 4 a.level.toNat) ++
      (leBytes 4 a.type.toNat ++ (a.data ++ after)) := by
    rw [hlevelAt, List.append_assoc (before ++ leBytes 8 a.len)]
  have hlevel := leNat_load_leBytes hlevelAt (by have := a.level.isLt; omega)
  have htype := leNat_load_leBytes htypeAt (by have := a.type.isLt; omega)
  rw [List.length_append, length_leBytes] at hlevel
  rw [List.length_append, List.length_append, length_leBytes, length_leBytes, Nat.add_assoc]
    at htype
  exact ⟨leNat_load_leBytes hlenAt (by omega), hlevel, htype⟩

/-- The data stands behind the header. -/
theorem leNat_load_data (h : c.bytes = before ++ (a.bytes ++ after)) (off n : Nat)
    (hn : off + n ≤ a.data.length) :
    leNat (c.load (before.length + cmsgHdrSize + off) n) = field a.data off n := by
  have hdata : c.bytes = (before ++ leBytes 8 a.len ++ leBytes 4 a.level.toNat ++
      leBytes 4 a.type.toNat) ++ (a.data ++ after) := by
    simp only [h, CMessage.bytes, List.append_assoc]
  have hload := load_part hdata hn
  simp only [List.length_append, length_leBytes] at hload
  rw [field, ← hload, cmsgHdrSize]

/-- The descriptors are listed as those of the data. -/
theorem fdsText_eq (h : c.bytes = before ++ (a.bytes ++ after)) :
    fdsText c (before.length + cmsgHdrSize) 0 (a.data.length / 4) =
      List.intercalate (lit ", ") (a.fds.map decInt) := by
  have hfd : ∀ i, i < a.data.length / 4 →
      c.fdAt (before.length + cmsgHdrSize) i = fieldInt a.data (i * 4) 4 := by
    intro i hi
    rw [ControlBuf.fdAt, leNat_load_data h (i * 4) 4 (by omega)]
    rfl
  have hlist : ∀ n start, start + n ≤ a.data.length / 4 →
      fdsText c (before.length + cmsgHdrSize) start n = sepItems (start = 0)
        (((List.range' start n).map fun i => fieldInt a.data (i * 4) 4).map decInt) := by
    intro n
    induction n with
    | zero => intro start _; rfl
    | succ n ih =>
        intro start hle
        rw [fdsText_succ, ih (start + 1) (by omega), fdText, hfd start (by omega),
          List.range'_succ, List.map_cons, List.map_cons, sepItems_cons]
        simp
  rw [hlist _ 0 (by omega), CMessage.fds, List.range_eq_range']
  exact sepItems_true _

/-- One message is shown as it is to be. -/
theorem cmsgText_eq (h : c.bytes = before ++ (a.bytes ++ after)) (hlen : a.len < 2 ^ 64)
    (first : Bool) :
    cmsgText c first before.length = (if first then [] else lit ", ") ++ a.text := by
  obtain ⟨hl, hlevel, htype⟩ := header_of_bytes h hlen
  have hnum : c.numFds before.length = a.data.length / 4 := by
    have hdata : (if a.len > cmsgHdrSize then a.len - cmsgHdrSize else 0) = a.data.length := by
      unfold CMessage.len
      split_ifs <;> omega
    rw [ControlBuf.numFds, hl, hdata]
  have hucred : c.cmsgLen before.length ≥ cmsgLenUcred ↔ 12 ≤ a.data.length := by
    rw [hl, CMessage.len, cmsgLenUcred, cmsgHdrSize]
    omega
  have hpayload : payloadText c before.length =
      if a.level.toNat = solSocket ∧ a.type.toNat = scmRights then
        lit ", cmsg_type=SCM_RIGHTS, cmsg_data=[" ++
          List.intercalate (lit ", ") (a.fds.map decInt) ++ lit "]\x7d"
      else if a.level.toNat = solSocket ∧ a.type.toNat = scmCredentials ∧ 12 ≤ a.data.length then
        lit ", cmsg_type=SCM_CREDENTIALS, cmsg_data=\x7bpid=" ++ decInt (fieldInt a.data 0 4) ++
          lit ", uid=" ++ dec (field a.data 4 4) ++ lit ", gid=" ++ dec (field a.data 8 4) ++
          lit "\x7d\x7d"
      else
        lit ", cmsg_type=0x" ++ hex a.type.toNat ++ lit ", cmsg_len=" ++ dec a.len ++
          lit "\x7d" := by
    unfold payloadText
    dsimp only
    rw [hlevel, htype, hnum, fdsText_eq h]
    simp only [hucred]
    split_ifs with hrights hcred
    · rfl
    · have hpid := leNat_load_data h 0 4 (by omega)
      have huid := leNat_load_data h 4 4 (by omega)
      have hgid := leNat_load_data h 8 4 (by omega)
      rw [Nat.add_zero] at hpid
      rw [credText, hpid, huid, hgid]
      rfl
    · rw [otherText, htype, hl]
  rw [cmsgText, cmsgHead, hlevel, hpayload, CMessage.text]
  simp only [List.append_assoc]

end Message

/-! ## The walk -/

section Walk

variable {c : ControlBuf} {before tail : Text}

/-- Behind the last message there is no header. -/
theorem nxtHdr_last {a : CMessage} (h : c.bytes = before ++ (a.bytes ++ tail))
    (hlen : a.len < 2 ^ 64) (htail : tail.length < cmsgHdrSize) : c.nxtHdr before.length = none := by
  have hgot : c.got = before.length + (a.len + tail.length) := by
    rw [ControlBuf.got, h, List.length_append, List.length_append, a.length_bytes]
  rw [ControlBuf.nxtHdr, (header_of_bytes h hlen).1, if_neg]
  rintro ⟨-, hfit⟩
  rw [hgot, ControlBuf.cmsgAlign] at hfit
  omega

/-- Behind any other stands the next. -/
theorem nxtHdr_next {a : CMessage} {after : Text} (h : c.bytes = before ++ (a.bytes ++ after))
    (hlen : a.len < 2 ^ 64) (halign : a.Aligned) {rest : Text} (hafter : after = a.gap ++ rest)
    (hrest : cmsgHdrSize ≤ rest.length) :
    c.nxtHdr before.length = some (before ++ a.bytes ++ a.gap).length := by
  have hgot : c.got = before.length + (a.len + (a.gap.length + rest.length)) := by
    rw [ControlBuf.got, h, hafter, List.length_append, List.length_append, List.length_append,
      a.length_bytes]
  rw [ControlBuf.nxtHdr, (header_of_bytes h hlen).1, if_pos]
  · rw [← halign, List.length_append, List.length_append, a.length_bytes, Nat.add_assoc]
  · rw [hgot, ← halign]
    exact ⟨Nat.le_add_right _ _, by omega⟩

theorem length_le_control (a : CMessage) (rest : List CMessage) (tail : Text) :
    a.len ≤ (control (a :: rest) tail).length := by
  cases rest with
  | nil =>
      rw [control, List.length_append, a.length_bytes]
      exact Nat.le_add_right _ _
  | cons b rest =>
      rw [control, List.length_append, a.length_bytes]
      exact Nat.le_add_right _ _

/-- The walk from the first message on shows all of them, given as many rounds. -/
theorem cmsgTexts_control {msgs : List CMessage} (halign : ∀ a ∈ msgs, a.Aligned)
    (htail : tail.length < cmsgHdrSize) (hne : msgs ≠ [])
    (h : c.bytes = before ++ control msgs tail) (hlen : c.got < 2 ^ 64) (first : Bool) (n : Nat) :
    cmsgTexts c first (headersFrom c (msgs.length + n) before.length) =
      sepItems first (msgs.map CMessage.text) := by
  induction msgs generalizing before first with
  | nil => exact absurd rfl hne
  | cons a rest ih =>
      have ha : a.len < 2 ^ 64 := by
        have hle := length_le_control a rest tail
        rw [ControlBuf.got, h, List.length_append] at hlen
        omega
      rw [List.length_cons, Nat.succ_add, headersFrom, List.map_cons, sepItems_cons]
      cases rest with
      | nil =>
          have hbytes : c.bytes = before ++ (a.bytes ++ tail) := h
          rw [nxtHdr_last hbytes ha htail, cmsgTexts, cmsgText_eq hbytes ha]
          rfl
      | cons b rest =>
          have hbytes : c.bytes = before ++ (a.bytes ++ (a.gap ++ control (b :: rest) tail)) := h
          have hnext : c.bytes = (before ++ a.bytes ++ a.gap) ++ control (b :: rest) tail := by
            simp only [hbytes, List.append_assoc]
          have hroom : cmsgHdrSize ≤ (control (b :: rest) tail).length :=
            (Nat.le_add_right _ _).trans (length_le_control b rest tail)
          rw [nxtHdr_next hbytes ha (halign a List.mem_cons_self) rfl hroom, cmsgTexts,
            cmsgText_eq hbytes ha]
          dsimp only
          rw [ih (fun a' ha' => halign a' (List.mem_cons_of_mem a ha')) (List.cons_ne_nil b rest)
            hnext false]

end Walk

/-- How control data is to be shown. -/
def messagesText (msgs : List CMessage) : Text :=
  lit "[" ++ List.intercalate (lit ", ") (msgs.map CMessage.text) ++ lit "]"

theorem length_msgs_le_control (msgs : List CMessage) (tail : Text) :
    msgs.length ≤ (control msgs tail).length := by
  induction msgs with
  | nil => exact Nat.zero_le _
  | cons a rest ih =>
      have hpos : 1 ≤ a.len := Nat.le_add_right_of_le (by decide)
      cases rest with
      | nil => exact hpos.trans (length_le_control a [] tail)
      | cons b rest =>
          rw [control, List.length_append, List.length_append, a.length_bytes, List.length_cons]
          omega

/-- With room for everything, what is shown is what was written. -/
theorem controlText_control {c : ControlBuf} {msgs : List CMessage} {tail : Text}
    (halign : ∀ a ∈ msgs, a.Aligned) (htail : tail.length < cmsgHdrSize)
    (h : c.bytes = control msgs tail) (hlen : c.got < 2 ^ 64) :
    controlText c = messagesText msgs := by
  have hempty : lit "[" ++ List.intercalate (lit ", ") [] ++ lit "]" = lit "[]" := by
    with_unfolding_all decide
  have hgot : c.got = (control msgs tail).length := congrArg List.length h
  unfold controlText messagesText headers ControlBuf.firstHdr
  cases msgs with
  | nil =>
      have hshort : ¬cmsgHdrSize ≤ c.got := by
        rw [hgot]
        exact Nat.not_le.mpr htail
      rw [if_neg hshort, List.map_nil, hempty]
      split_ifs
      · rfl
      · exact hempty
  | cons a rest =>
      have hlong : cmsgHdrSize ≤ c.got := by
        rw [hgot]
        exact (Nat.le_add_right _ _).trans (length_le_control a rest tail)
      have hrounds : c.got = (a :: rest).length + (c.got - (a :: rest).length) := by
        have hle := length_msgs_le_control (a :: rest) tail
        omega
      have hfrom : c.bytes = [] ++ control (a :: rest) tail := h
      have hwalk := cmsgTexts_control halign htail (List.cons_ne_nil a rest) hfrom hlen true
        (c.got - (a :: rest).length)
      rw [← hrounds, sepItems_true] at hwalk
      rw [if_pos hlong, if_neg (show ¬c.got = 0 by unfold cmsgHdrSize at hlong; omega)]
      exact congrArg (fun t => lit "[" ++ t ++ lit "]") hwalk

/-- Whatever messages a tracee has put into its control data, up to the 512 bytes that are
copied: if there is room for the text, `format_cmsg` finds all the messages and nothing else,
and prints each by its own level, type and data. -/
theorem formatCmsg_messages (host : Host) (m : Mem) (addr : Word) (msgs : List CMessage)
    (tail : Text) (halign : ∀ a ∈ msgs, a.Aligned) (htail : tail.length < cmsgHdrSize)
    (hmax : (control msgs tail).length ≤ msghdrMaxControl)
    (hmapped : WordsMapped m addr (control msgs tail).length)
    (hbytes : m.bytes addr (control msgs tail).length = control msgs tail) (size : Nat)
    (hroom : (messagesText msgs).length < size) (hsize : size < 2 ^ 64) (init : Nat → Byte) :
    (formatCmsg host m addr (control msgs tail).length (new size init)).out.str =
      messagesText msgs := by
  set c := readControl host m addr (control msgs tail).length with hc
  have hcopied : c.bytes = control msgs tail := by
    have hwant : (if (control msgs tail).length < msghdrMaxControl then (control msgs tail).length
        else msghdrMaxControl) = (control msgs tail).length := by
      split_ifs <;> omega
    rw [hc, readControl, hwant, readChildRaw_whole hmapped, hbytes]
  have hgot : c.got < 2 ^ 64 := by
    rw [ControlBuf.got, hcopied]
    exact lt_of_le_of_lt hmax (by decide)
  have hplain := controlText_plain c
  have hshows := formatControl_shows hsize c init
  rw [controlText_control halign htail hcopied hgot] at hplain hshows
  have hstr := hshows.str_eq (by rw [formatControl_size, new_size]; omega) hplain.ne_nil
    fun b hb => hplain.clean.ne_zero hb
  rw [formatControl_size, new_size, List.take_of_length_le (by omega)] at hstr
  exact hstr

/-- A descriptor handed over, and the sender's credentials. -/
def twoMessages : List CMessage :=
  [⟨1, 1, leBytes 4 3, [0, 0, 0, 0]⟩,
    ⟨1, 2, leBytes 4 100 ++ leBytes 4 1000 ++ leBytes 4 1000, [0, 0, 0, 0]⟩]

theorem formatCmsg_messages_two :
    (formatCmsg default (holds (control twoMessages [])) 0x1000 52
      (new 512 fun _ => 0)).out.str = messagesText twoMessages := by
  have haligned : ∀ a ∈ twoMessages, a.Aligned := by
    intro a ha
    simp only [twoMessages, List.mem_cons, List.not_mem_nil, or_false] at ha
    rcases ha with rfl | rfl <;> rfl
  have hmapped : WordsMapped (holds (control twoMessages [])) 0x1000
      (control twoMessages []).length := fun _ _ => rfl
  exact formatCmsg_messages default (holds (control twoMessages [])) 0x1000 twoMessages []
    haligned (by decide) (by decide) hmapped (by decide +kernel) 512 (by decide +kernel) (by decide)
    fun _ => 0

end MiniStrace
