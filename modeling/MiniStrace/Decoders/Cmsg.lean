/-
  Decoders/Cmsg.lean --- `format_cmsg`, the ancillary data of `sendmsg` and
  `recvmsg`.

  WHAT IS MODELLED.  The control buffer is copied into the 512-byte array `cbuf`
  and walked with `CMSG_FIRSTHDR` / `CMSG_NXTHDR`.  The array is longer than what
  was copied, so a read past `got` is possible and yields whatever the stack held;
  the model keeps those bytes apart (`ControlBuf.junk`) and records every range of
  `cbuf` the decoder looks at.

  THE PURE SIDE.  `headers` lists the positions of the messages and `cmsgText`
  gives the text of one message with unlimited room; `cmsgWidth` is its width
  computed from the header alone.  The array always shows the concatenation of
  these texts (`formatCmsg_shows`), so the running offset of the C code is known
  at every message from the widths of the messages before it.
-/
import MiniStrace.ChildMem

set_option autoImplicit false

namespace MiniStrace

open CLib

/-- `MSGHDR_MAX_CONTROL`. -/
def msghdrMaxControl : Nat := 512

/-- `SOL_SOCKET`. -/
def solSocket : Nat := 1

/-- `SCM_RIGHTS`. -/
def scmRights : Nat := 1

/-- `SCM_CREDENTIALS`. -/
def scmCredentials : Nat := 2

/-- `sizeof(struct cmsghdr)`, also `CMSG_LEN(0)` and the offset of `CMSG_DATA`. -/
def cmsgHdrSize : Nat := 16

/-- `CMSG_LEN(sizeof(struct ucred))`. -/
def cmsgLenUcred : Nat := 28

/-! ## The copied control buffer -/

/-- `cbuf` after `read_child_raw`: the bytes copied, and what the array held
before. -/
structure ControlBuf where
  bytes : Text
  junk : Nat → Byte

namespace ControlBuf

/-- The number of bytes `read_child_raw` returned. -/
def got (c : ControlBuf) : Nat := c.bytes.length

/-- `len` bytes of the array from index `pos` on. -/
def load (c : ControlBuf) (pos len : Nat) : Text :=
  (List.range len).map fun i => (c.bytes[pos + i]?).getD (c.junk (pos + i))

/-- `cmsg_len` of the header at `pos`. -/
def cmsgLen (c : ControlBuf) (pos : Nat) : Nat := leNat (c.load pos 8)

/-- `cmsg_level` of the header at `pos`, as the bits of its `int`. -/
def cmsgLevel (c : ControlBuf) (pos : Nat) : Nat := leNat (c.load (pos + 8) 4)

/-- `cmsg_type` of the header at `pos`, as the bits of its `int`. -/
def cmsgType (c : ControlBuf) (pos : Nat) : Nat := leNat (c.load (pos + 12) 4)

/-- The descriptor number `i` of the data at `data`. -/
def fdAt (c : ControlBuf) (data i : Nat) : Int := signed 32 (leNat (c.load (data + i * 4) 4))

/-- `CMSG_ALIGN`. -/
def cmsgAlign (n : Nat) : Nat := (n + 7) / 8 * 8

/-- `CMSG_FIRSTHDR`: no check of the header's own `cmsg_len`. -/
def firstHdr (c : ControlBuf) : Option Nat :=
  if cmsgHdrSize ≤ c.got then some 0 else none

/-- `CMSG_NXTHDR`. -/
def nxtHdr (c : ControlBuf) (pos : Nat) : Option Nat :=
  if cmsgHdrSize ≤ c.cmsgLen pos ∧
      pos + cmsgAlign (c.cmsgLen pos) + cmsgHdrSize ≤ c.got then
    some (pos + cmsgAlign (c.cmsgLen pos))
  else none

/-- `num_fds` of an `SCM_RIGHTS` message. -/
def numFds (c : ControlBuf) (pos : Nat) : Nat :=
  (if c.cmsgLen pos > cmsgHdrSize then c.cmsgLen pos - cmsgHdrSize else 0) / 4

end ControlBuf

/-! ## The decoder -/

/-- The output array of `format_cmsg` and the ranges of `cbuf` it used. -/
structure CmsgOut where
  out : OutBuf
  used : List (Nat × Nat)

namespace CmsgOut

/-- `oi += snprintf(out + oi, out_size - oi, s)`. -/
def print (st : CmsgOut) (s : Text) : CmsgOut := { st with out := st.out.snprintf s }

/-- Record a use of `len` bytes of `cbuf` from `pos` on. -/
def use (st : CmsgOut) (pos len : Nat) : CmsgOut := { st with used := (pos, len) :: st.used }

@[simp] theorem print_out (st : CmsgOut) (s : Text) : (st.print s).out = st.out.snprintf s := rfl
@[simp] theorem print_used (st : CmsgOut) (s : Text) : (st.print s).used = st.used := rfl
@[simp] theorem use_out (st : CmsgOut) (pos len : Nat) : (st.use pos len).out = st.out := rfl
@[simp] theorem use_used (st : CmsgOut) (pos len : Nat) :
    (st.use pos len).used = (pos, len) :: st.used := rfl

end CmsgOut

/-- The text of one descriptor. -/
def fdText (c : ControlBuf) (data i : Nat) : Text :=
  (if i = 0 then [] else lit ", ") ++ decInt (c.fdAt data i)

/-- `for (i = 0; i < num_fds && oi < out_size; i++)`, with `left` descriptors to
go. -/
def rightsLoop (c : ControlBuf) (data numFds : Nat) : Nat → CmsgOut → CmsgOut
  | 0, st => st
  | left + 1, st =>
      if st.out.oi < st.out.size then
        let i := numFds - (left + 1)
        rightsLoop c data numFds left ((st.use (data + i * 4) 4).print (fdText c data i))
      else st

/-- The text before the message's own type. -/
def cmsgHead (first : Bool) : Text :=
  (if first then [] else lit ", ") ++ lit "\x7bcmsg_level="

/-- The text of the level. -/
def levelText (level : Nat) : Text :=
  if level = solSocket then lit "SOL_SOCKET" else hex0x level

/-- The text of an `SCM_CREDENTIALS` payload. -/
def credText (c : ControlBuf) (data : Nat) : Text :=
  lit ", cmsg_type=SCM_CREDENTIALS, cmsg_data=\x7bpid=" ++
    decInt (signed 32 (leNat (c.load data 4))) ++ lit ", uid=" ++
    dec (leNat (c.load (data + 4) 4)) ++ lit ", gid=" ++
    dec (leNat (c.load (data + 8) 4)) ++ lit "\x7d\x7d"

/-- The text of a message that is not decoded. -/
def otherText (c : ControlBuf) (pos : Nat) : Text :=
  lit ", cmsg_type=0x" ++ hex (c.cmsgType pos) ++ lit ", cmsg_len=" ++
    dec (c.cmsgLen pos) ++ lit "\x7d"

/-- The body of the message loop for the header at `pos`, and whether it ended in
`break`. -/
def cmsgBody (c : ControlBuf) (pos : Nat) (first : Bool) (st : CmsgOut) : CmsgOut × Bool :=
  let level := c.cmsgLevel pos
  let type := c.cmsgType pos
  let data := pos + cmsgHdrSize
  let st := (st.use pos cmsgHdrSize).print (cmsgHead first)
  let st := st.print (levelText level)
  if st.out.oi ≥ st.out.size then (st, true)
  else if level = solSocket ∧ type = scmRights then
    let st := st.print (lit ", cmsg_type=SCM_RIGHTS, cmsg_data=[")
    let st := rightsLoop c data (c.numFds pos) (c.numFds pos) st
    ({ st with out := st.out.append (lit "]\x7d") }, false)
  else if level = solSocket ∧ type = scmCredentials ∧ c.cmsgLen pos ≥ cmsgLenUcred then
    ((st.use data 12).print (credText c data), false)
  else (st.print (otherText c pos), false)

/-- The message loop.  Every step moves at least one header forward, so `got`
rounds are enough. -/
def cmsgLoop (c : ControlBuf) : Nat → Nat → Bool → CmsgOut → CmsgOut
  | 0, _, _, st => st
  | fuel + 1, pos, first, st =>
      if st.out.oi < st.out.size then
        let r := cmsgBody c pos first st
        if r.2 then r.1
        else match c.nxtHdr pos with
          | none => r.1
          | some next => cmsgLoop c fuel next false r.1
      else st

/-- The part of `format_cmsg` after the control buffer has been copied. -/
def formatControl (c : ControlBuf) (out : OutBuf) : CmsgOut :=
  let st : CmsgOut := ⟨out, []⟩
  if c.got = 0 then st.print (lit "[]")
  else
    let st := st.print (lit "[")
    let st := match c.firstHdr with
      | none => st
      | some pos => cmsgLoop c c.got pos true st
    { st with out := st.out.append (lit "]") }

/-- What `format_cmsg` copies from the tracee. -/
def readControl (host : Host) (m : Mem) (addr : Word) (controllen : Nat) : ControlBuf where
  bytes := readChildRaw m addr
    (if controllen < msghdrMaxControl then controllen else msghdrMaxControl)
  junk := host.junk

/-- `format_cmsg`. -/
def formatCmsg (host : Host) (m : Mem) (addr : Word) (controllen : Nat) (out : OutBuf) :
    CmsgOut :=
  formatControl (readControl host m addr controllen) out

/-! ## The text of a message and its width -/

/-- The descriptors `start, ..., start + n - 1` as they are listed. -/
def fdsText (c : ControlBuf) (data start n : Nat) : Text :=
  (List.range' start n).flatMap (fdText c data)

/-- The text after the level. -/
def payloadText (c : ControlBuf) (pos : Nat) : Text :=
  let data := pos + cmsgHdrSize
  if c.cmsgLevel pos = solSocket ∧ c.cmsgType pos = scmRights then
    lit ", cmsg_type=SCM_RIGHTS, cmsg_data=[" ++ fdsText c data 0 (c.numFds pos) ++ lit "]\x7d"
  else if c.cmsgLevel pos = solSocket ∧ c.cmsgType pos = scmCredentials ∧
      c.cmsgLen pos ≥ cmsgLenUcred then
    credText c data
  else otherText c pos

/-- The text of one message. -/
def cmsgText (c : ControlBuf) (first : Bool) (pos : Nat) : Text :=
  cmsgHead first ++ levelText (c.cmsgLevel pos) ++ payloadText c pos

/-- The width of `%u`. -/
def decWidth (n : Nat) : Nat := Nat.log 10 n + 1

/-- The width of `%x`. -/
def hexWidth (n : Nat) : Nat := Nat.log 16 n + 1

/-- The width of `%d`. -/
def intWidth (z : Int) : Nat := (if z < 0 then 1 else 0) + decWidth z.natAbs

/-- The width of the separator and of `{cmsg_level=`. -/
def headWidth (first : Bool) : Nat := if first then 12 else 14

/-- The width of a level. -/
def levelWidth (level : Nat) : Nat := if level = solSocket then 10 else 2 + hexWidth level

/-- The width of the descriptors `start, ..., start + n - 1`. -/
def fdsWidth (c : ControlBuf) (data start n : Nat) : Nat :=
  ((List.range' start n).map fun i =>
    (if i = 0 then 0 else 2) + intWidth (c.fdAt data i)).sum

/-- The width of what follows the level. -/
def payloadWidth (c : ControlBuf) (pos : Nat) : Nat :=
  let data := pos + cmsgHdrSize
  if c.cmsgLevel pos = solSocket ∧ c.cmsgType pos = scmRights then
    35 + fdsWidth c data 0 (c.numFds pos) + 2
  else if c.cmsgLevel pos = solSocket ∧ c.cmsgType pos = scmCredentials ∧
      c.cmsgLen pos ≥ cmsgLenUcred then
    44 + intWidth (signed 32 (leNat (c.load data 4))) + 6 +
      decWidth (leNat (c.load (data + 4) 4)) + 6 + decWidth (leNat (c.load (data + 8) 4)) + 2
  else 14 + hexWidth (c.cmsgType pos) + 11 + decWidth (c.cmsgLen pos) + 1

/-- The width of one message. -/
def cmsgWidth (c : ControlBuf) (first : Bool) (pos : Nat) : Nat :=
  headWidth first + levelWidth (c.cmsgLevel pos) + payloadWidth c pos

theorem length_dec (n : Nat) : (dec n).length = decWidth n := length_numeral (by decide) n

theorem length_hex (n : Nat) : (hex n).length = hexWidth n := length_numeral (by decide) n

theorem length_decInt (z : Int) : (decInt z).length = intWidth z := by
  unfold decInt intWidth
  split
  · rw [List.length_append, length_dec, show (lit "-").length = 1 by with_unfolding_all decide]
  · rw [length_dec, Nat.zero_add]

theorem length_cmsgHead (first : Bool) : (cmsgHead first).length = headWidth first := by
  cases first <;> with_unfolding_all decide

theorem length_levelText (level : Nat) : (levelText level).length = levelWidth level := by
  unfold levelText levelWidth
  split
  · with_unfolding_all decide
  · rw [hex0x, List.length_append, length_hex, show (lit "0x").length = 2 by with_unfolding_all decide]

theorem length_fdText (c : ControlBuf) (data i : Nat) :
    (fdText c data i).length = (if i = 0 then 0 else 2) + intWidth (c.fdAt data i) := by
  unfold fdText
  rw [List.length_append, length_decInt]
  split
  · rfl
  · rw [show (lit ", ").length = 2 by with_unfolding_all decide]

theorem length_fdsText (c : ControlBuf) (data start n : Nat) :
    (fdsText c data start n).length = fdsWidth c data start n := by
  unfold fdsText fdsWidth
  rw [List.length_flatMap]
  congr 1
  exact List.map_congr_left fun i _ => length_fdText c data i

theorem fdsText_succ (c : ControlBuf) (data start n : Nat) :
    fdsText c data start (n + 1) = fdText c data start ++ fdsText c data (start + 1) n := by
  simp [fdsText, List.range'_succ]

theorem fdsWidth_succ (c : ControlBuf) (data start n : Nat) :
    fdsWidth c data start (n + 1) =
      (fdText c data start).length + fdsWidth c data (start + 1) n := by
  rw [length_fdText]
  simp [fdsWidth, List.range'_succ]

theorem fdsWidth_mono (c : ControlBuf) (data start : Nat) {k n : Nat} (h : k ≤ n) :
    fdsWidth c data start k ≤ fdsWidth c data start n := by
  obtain ⟨d, rfl⟩ := Nat.exists_eq_add_of_le h
  unfold fdsWidth
  rw [← List.range'_append_1, List.map_append, List.sum_append]
  omega

theorem length_payloadText (c : ControlBuf) (pos : Nat) :
    (payloadText c pos).length = payloadWidth c pos := by
  have h₁ : (lit ", cmsg_type=SCM_RIGHTS, cmsg_data=[").length = 35 := by with_unfolding_all decide
  have h₂ : (lit "]\x7d").length = 2 := by with_unfolding_all decide
  have h₃ : (lit ", cmsg_type=SCM_CREDENTIALS, cmsg_data=\x7bpid=").length = 44 := by
    with_unfolding_all decide
  have h₄ : (lit ", uid=").length = 6 ∧ (lit ", gid=").length = 6 := by with_unfolding_all decide
  have h₅ : (lit "\x7d\x7d").length = 2 := by with_unfolding_all decide
  have h₆ : (lit ", cmsg_type=0x").length = 14 := by with_unfolding_all decide
  have h₇ : (lit ", cmsg_len=").length = 11 ∧ (lit "\x7d").length = 1 := by with_unfolding_all decide
  unfold payloadText payloadWidth
  dsimp only
  split_ifs
  · simp only [List.length_append, h₁, h₂, length_fdsText]
  · simp only [credText, List.length_append, h₃, h₄, h₅, length_dec, length_decInt]
  · simp only [otherText, List.length_append, h₆, h₇, length_dec, length_hex]

theorem length_cmsgText (c : ControlBuf) (first : Bool) (pos : Nat) :
    (cmsgText c first pos).length = cmsgWidth c first pos := by
  simp only [cmsgText, cmsgWidth, List.length_append, length_cmsgHead, length_levelText,
    length_payloadText]

/-! ## The walk over the headers -/

/-- The positions `CMSG_FIRSTHDR` and `CMSG_NXTHDR` visit from `pos` on. -/
def headersFrom (c : ControlBuf) : Nat → Nat → List Nat
  | 0, _ => []
  | fuel + 1, pos =>
      pos :: match c.nxtHdr pos with
        | none => []
        | some next => headersFrom c fuel next

/-- The positions of all messages. -/
def headers (c : ControlBuf) : List Nat :=
  match c.firstHdr with
  | none => []
  | some pos => headersFrom c c.got pos

/-- The message loop over a given list of headers. -/
def cmsgList (c : ControlBuf) : List Nat → Bool → CmsgOut → CmsgOut
  | [], _, st => st
  | pos :: rest, first, st =>
      if st.out.oi < st.out.size then
        let r := cmsgBody c pos first st
        if r.2 then r.1 else cmsgList c rest false r.1
      else st

theorem cmsgList_full (c : ControlBuf) (hs : List Nat) (first : Bool) {st : CmsgOut}
    (h : ¬ st.out.oi < st.out.size) : cmsgList c hs first st = st := by
  cases hs with
  | nil => rfl
  | cons pos rest => rw [cmsgList, if_neg h]

/-- The body breaks only when no room is left. -/
theorem cmsgBody_break {c : ControlBuf} {pos : Nat} {first : Bool} {st : CmsgOut}
    (h : (cmsgBody c pos first st).2 = true) :
    ¬ (cmsgBody c pos first st).1.out.oi < (cmsgBody c pos first st).1.out.size := by
  unfold cmsgBody at h ⊢
  dsimp only at h ⊢
  split at h
  · rename_i hfull
    rw [if_pos hfull]
    exact Nat.not_lt.mpr hfull
  · split at h
    · exact absurd h (by simp)
    · split at h <;> exact absurd h (by simp)

/-- A round of the list loop: stopping after a `break` and going on are the same,
because the next round finds no room. -/
theorem cmsgList_cons (c : ControlBuf) (pos : Nat) (rest : List Nat) (first : Bool)
    {st : CmsgOut} (h : st.out.oi < st.out.size) :
    cmsgList c (pos :: rest) first st = cmsgList c rest false (cmsgBody c pos first st).1 := by
  rw [cmsgList, if_pos h]
  dsimp only
  split
  · rename_i hstop
    exact (cmsgList_full c rest false (cmsgBody_break hstop)).symm
  · rfl

theorem cmsgLoop_eq (c : ControlBuf) (fuel pos : Nat) (first : Bool) (st : CmsgOut) :
    cmsgLoop c fuel pos first st = cmsgList c (headersFrom c fuel pos) first st := by
  induction fuel generalizing pos first st with
  | zero => rfl
  | succ fuel ih =>
      rw [cmsgLoop, headersFrom, cmsgList]
      split
      · dsimp only
        split
        · rfl
        · cases c.nxtHdr pos with
          | none => rfl
          | some next => exact ih next false _
      · rfl

/-- A header the walk moves to lies wholly inside the copied bytes, at least one
header further on, and the message before it ends before it starts. -/
theorem nxtHdr_some {c : ControlBuf} {pos next : Nat} (h : c.nxtHdr pos = some next) :
    pos + 16 ≤ next ∧ next + 16 ≤ c.got ∧ pos + c.cmsgLen pos ≤ next := by
  unfold ControlBuf.nxtHdr at h
  split at h
  · rename_i hc
    obtain ⟨hlen, hfit⟩ := hc
    have hn := Option.some.inj h
    unfold ControlBuf.cmsgAlign at hn hfit
    unfold cmsgHdrSize at hlen hfit
    omega
  · exact absurd h (by simp)

/-- `got` rounds see every message: more rounds change nothing. -/
theorem headersFrom_fuel (c : ControlBuf) {fuel pos : Nat} (hpos : pos + 16 ≤ c.got)
    (hfuel : c.got ≤ pos + 16 * fuel) (n : Nat) :
    headersFrom c (fuel + n) pos = headersFrom c fuel pos := by
  induction fuel generalizing pos with
  | zero => omega
  | succ fuel ih =>
      rw [Nat.succ_add, headersFrom, headersFrom]
      cases hn : c.nxtHdr pos with
      | none => rfl
      | some next =>
          have hnext := nxtHdr_some hn
          dsimp only
          rw [ih hnext.2.1 (by omega)]

/-- Every header visited lies inside the copied bytes. -/
theorem mem_headersFrom {c : ControlBuf} {fuel pos p : Nat} (hpos : pos + 16 ≤ c.got)
    (h : p ∈ headersFrom c fuel pos) : p + 16 ≤ c.got := by
  induction fuel generalizing pos with
  | zero => simp [headersFrom] at h
  | succ fuel ih =>
      rw [headersFrom, List.mem_cons] at h
      rcases h with rfl | h
      · exact hpos
      · cases hn : c.nxtHdr pos with
        | none => simp [hn] at h
        | some next =>
            rw [hn] at h
            exact ih (nxtHdr_some hn).2.1 h

theorem mem_headers {c : ControlBuf} {p : Nat} (h : p ∈ headers c) : p + 16 ≤ c.got := by
  unfold headers ControlBuf.firstHdr at h
  split at h
  · simp at h
  · rename_i pos hf
    split at hf
    · rename_i hgot
      obtain rfl := Option.some.inj hf
      exact mem_headersFrom (by unfold cmsgHdrSize at hgot; omega) h
    · simp at hf

/-- The message loop visits exactly `headers`, with any larger number of rounds. -/
theorem cmsgLoop_headers {c : ControlBuf} {pos : Nat} (h : c.firstHdr = some pos) (n : Nat)
    (first : Bool) (st : CmsgOut) :
    cmsgLoop c (c.got + n) pos first st = cmsgList c (headers c) first st := by
  have hgot : pos + 16 ≤ c.got := by
    unfold ControlBuf.firstHdr cmsgHdrSize at h
    split at h
    · have := Option.some.inj h
      omega
    · simp at h
  rw [cmsgLoop_eq, headersFrom_fuel c hgot (by omega) n]
  unfold headers
  rw [h]

/-! ## What the array shows -/

/-- The texts of the messages at `hs`. -/
def cmsgTexts (c : ControlBuf) : Bool → List Nat → Text
  | _, [] => []
  | first, pos :: rest => cmsgText c first pos ++ cmsgTexts c false rest

/-- The text of `format_cmsg` with unlimited room. -/
def controlText (c : ControlBuf) : Text :=
  if c.got = 0 then lit "[]" else lit "[" ++ cmsgTexts c true (headers c) ++ lit "]"

section Shows

variable {init : Nat → Byte} {c : ControlBuf}

theorem rightsLoop_shows (data n left : Nat) (hleft : left ≤ n) (st : CmsgOut) {t : Text}
    (h : st.out.Shows init t) :
    (rightsLoop c data n left st).out.Shows init (t ++ fdsText c data (n - left) left) := by
  induction left generalizing st t with
  | zero => simpa [rightsLoop, fdsText] using h
  | succ left ih =>
      rw [rightsLoop]
      split
      · rw [fdsText_succ, ← List.append_assoc,
          show n - (left + 1) + 1 = n - left by omega]
        exact ih (by omega) _ (h.snprintf (fdText c data (n - (left + 1))))
      · rename_i hfull
        exact h.extend (Nat.le_of_not_lt hfull) _

/-- Whatever way the body ends, the array shows the whole text of the message. -/
theorem cmsgBody_shows (pos : Nat) (first : Bool) (st : CmsgOut) {t : Text}
    (h : st.out.Shows init t) :
    (cmsgBody c pos first st).1.out.Shows init (t ++ cmsgText c first pos) := by
  set st₂ := ((st.use pos cmsgHdrSize).print (cmsgHead first)).print
    (levelText (c.cmsgLevel pos)) with hst₂
  have h₂ : st₂.out.Shows init (t ++ cmsgHead first ++ levelText (c.cmsgLevel pos)) :=
    (h.snprintf (cmsgHead first)).snprintf (levelText (c.cmsgLevel pos))
  have htail : t ++ cmsgText c first pos =
      t ++ cmsgHead first ++ levelText (c.cmsgLevel pos) ++ payloadText c pos := by
    simp only [cmsgText, List.append_assoc]
  rw [htail]
  unfold cmsgBody payloadText
  dsimp only
  rw [← hst₂]
  split
  · rename_i hfull
    exact h₂.extend hfull _
  · split
    · have hrights := rightsLoop_shows (c := c) (pos + cmsgHdrSize) (c.numFds pos)
        (c.numFds pos) (le_refl _) (st₂.print (lit ", cmsg_type=SCM_RIGHTS, cmsg_data=["))
        (h₂.snprintf _)
      rw [Nat.sub_self] at hrights
      simpa only [List.append_assoc] using hrights.append (lit "]\x7d")
    · split
      · exact h₂.snprintf _
      · exact h₂.snprintf _

theorem cmsgList_shows (hs : List Nat) (first : Bool) (st : CmsgOut) {t : Text}
    (h : st.out.Shows init t) :
    (cmsgList c hs first st).out.Shows init (t ++ cmsgTexts c first hs) := by
  induction hs generalizing first st t with
  | nil => simpa [cmsgList, cmsgTexts] using h
  | cons pos rest ih =>
      rw [cmsgTexts, ← List.append_assoc]
      by_cases hlt : st.out.oi < st.out.size
      · rw [cmsgList_cons c pos rest first hlt]
        exact ih false _ (cmsgBody_shows pos first st h)
      · rw [cmsgList_full c _ first hlt]
        exact (h.extend (Nat.le_of_not_lt hlt) _).extend (Nat.le_of_not_lt hlt) _

/-- The array left by `format_cmsg` shows the text of all messages. -/
theorem formatControl_shows {size : Nat} (hsize : size < 2 ^ 64) (c : ControlBuf)
    (init : Nat → Byte) :
    (formatControl c (OutBuf.new size init)).out.Shows init (controlText c) := by
  have h₀ := OutBuf.shows_new hsize init
  have h₁ : (CmsgOut.print ⟨OutBuf.new size init, []⟩ (lit "[")).out.Shows init (lit "[") :=
    h₀.snprintf (lit "[")
  unfold formatControl controlText
  split
  · exact h₀.snprintf (lit "[]")
  · cases hf : c.firstHdr with
    | none =>
        have : headers c = [] := by simp [headers, hf]
        rw [this, cmsgTexts, List.append_nil]
        dsimp only
        exact h₁.append (lit "]")
    | some pos =>
        have hloop := cmsgLoop_headers hf 0 true (CmsgOut.print ⟨OutBuf.new size init, []⟩ (lit "["))
        rw [Nat.add_zero] at hloop
        dsimp only
        rw [hloop]
        exact (cmsgList_shows (headers c) true _ h₁).append (lit "]")

end Shows

end MiniStrace
