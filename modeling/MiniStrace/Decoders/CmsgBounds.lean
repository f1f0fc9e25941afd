/-
  Decoders/CmsgBounds.lean --- where `format_cmsg` leaves its two arrays.

  THE OUTPUT ARRAY.  Of the appends of one message only the one that prints the
  level is made without looking at the room left.  The loop condition guarantees
  that a message starts inside the array, so the level lands outside exactly when
  the message starts less than the width of `, {cmsg_level=` before the end.

  THE CONTROL BUFFER.  Headers are always inside the copied bytes.  The payload of
  a message is not: the number of descriptors and the presence of credentials are
  taken from `cmsg_len` alone, which the walk compares with `got` only to decide
  whether to move on.  A message that ends past `got` is therefore read past `got`,
  unless the output array is full before the decoder gets there.

  Both facts are stated as equivalences with a condition on the control data, in
  terms of where each message starts in the unlimited text (`Message.start`).
-/
import MiniStrace.Decoders.Cmsg

set_option autoImplicit false

namespace MiniStrace

open CLib

/-! ## Where the messages start -/

/-- A message, whether it is the first one, and the offset of its text when the
room is unlimited. -/
structure Message where
  pos : Nat
  first : Bool
  start : Nat

/-- The messages at `hs`, the first of them at offset `start`. -/
def messagesFrom (c : ControlBuf) : Bool → Nat → List Nat → List Message
  | _, _, [] => []
  | first, start, pos :: rest =>
      ⟨pos, first, start⟩ :: messagesFrom c false (start + cmsgWidth c first pos) rest

/-- All messages of a control buffer; the text before the first one is `[`. -/
def messages (c : ControlBuf) : List Message := messagesFrom c true 1 (headers c)

theorem start_le_of_mem {c : ControlBuf} {first : Bool} {start : Nat} {hs : List Nat}
    {msg : Message} (h : msg ∈ messagesFrom c first start hs) : start ≤ msg.start := by
  induction hs generalizing first start with
  | nil => simp [messagesFrom] at h
  | cons pos rest ih =>
      rw [messagesFrom, List.mem_cons] at h
      rcases h with rfl | h
      · exact le_refl _
      · have := ih h
        omega

theorem messagesFrom_first {c : ControlBuf} {first : Bool} {start : Nat} {hs : List Nat}
    {msg : Message} (h : msg ∈ messagesFrom c first start hs) (hf : msg.first = true) :
    first = true ∧ msg.start = start := by
  induction hs generalizing first start with
  | nil => simp [messagesFrom] at h
  | cons pos rest ih =>
      rw [messagesFrom, List.mem_cons] at h
      rcases h with rfl | h
      · exact ⟨hf, rfl⟩
      · exact absurd (ih h).1 (by simp)

theorem pos_mem_of_mem {c : ControlBuf} {first : Bool} {start : Nat} {hs : List Nat}
    {msg : Message} (h : msg ∈ messagesFrom c first start hs) : msg.pos ∈ hs := by
  induction hs generalizing first start with
  | nil => simp [messagesFrom] at h
  | cons pos rest ih =>
      rw [messagesFrom, List.mem_cons] at h
      rcases h with rfl | h
      · exact List.mem_cons_self
      · exact List.mem_cons_of_mem pos (ih h)

/-! The start of a message depends on the copied bytes only: every message that has
another one after it lies inside them. -/

section Junk

variable {bytes : Text} {j k : Nat → Byte}

theorem load_junk {pos len : Nat} (h : pos + len ≤ bytes.length) :
    ControlBuf.load ⟨bytes, j⟩ pos len = ControlBuf.load ⟨bytes, k⟩ pos len := by
  refine List.map_congr_left fun i hi => ?_
  have hi := List.mem_range.mp hi
  rw [List.getElem?_eq_getElem (show pos + i < bytes.length by omega)]
  rfl

theorem header_junk {pos : Nat} (h : pos + 16 ≤ bytes.length) :
    ControlBuf.cmsgLen ⟨bytes, j⟩ pos = ControlBuf.cmsgLen ⟨bytes, k⟩ pos ∧
    ControlBuf.cmsgLevel ⟨bytes, j⟩ pos = ControlBuf.cmsgLevel ⟨bytes, k⟩ pos ∧
    ControlBuf.cmsgType ⟨bytes, j⟩ pos = ControlBuf.cmsgType ⟨bytes, k⟩ pos := by
  unfold ControlBuf.cmsgLen ControlBuf.cmsgLevel ControlBuf.cmsgType
  refine ⟨?_, ?_, ?_⟩
  · rw [load_junk (k := k) (by omega)]
  · rw [load_junk (k := k) (by omega)]
  · rw [load_junk (k := k) (by omega)]

theorem fdsWidth_junk {data n : Nat} (h : data + n * 4 ≤ bytes.length) :
    fdsWidth ⟨bytes, j⟩ data 0 n = fdsWidth ⟨bytes, k⟩ data 0 n := by
  unfold fdsWidth ControlBuf.fdAt
  refine congrArg List.sum (List.map_congr_left fun i hi => ?_)
  have hi := List.mem_range'_1.mp hi
  rw [load_junk (k := k) (by omega)]

/-- The width of a message inside the copied bytes. -/
theorem cmsgWidth_junk {pos : Nat} (first : Bool) (h : pos + 16 ≤ bytes.length)
    (hlen : pos + ControlBuf.cmsgLen ⟨bytes, j⟩ pos ≤ bytes.length) :
    cmsgWidth ⟨bytes, j⟩ first pos = cmsgWidth ⟨bytes, k⟩ first pos := by
  obtain ⟨h₁, h₂, h₃⟩ := header_junk (j := j) (k := k) h
  unfold cmsgWidth payloadWidth ControlBuf.numFds
  dsimp only
  rw [← h₁, ← h₂, ← h₃]
  refine congrArg (headWidth first + levelWidth (ControlBuf.cmsgLevel ⟨bytes, j⟩ pos) + ·) ?_
  split
  · rw [fdsWidth_junk (k := k)]
    unfold cmsgHdrSize
    split <;> omega
  · split
    · rename_i hcred
      have h28 : 28 ≤ ControlBuf.cmsgLen ⟨bytes, j⟩ pos := hcred.2.2
      unfold cmsgHdrSize
      rw [load_junk (k := k) (show pos + 16 + 4 ≤ bytes.length by omega),
        load_junk (k := k) (show pos + 16 + 4 + 4 ≤ bytes.length by omega),
        load_junk (k := k) (show pos + 16 + 8 + 4 ≤ bytes.length by omega)]
    · rfl

theorem nxtHdr_junk {pos : Nat} (h : pos + 16 ≤ bytes.length) :
    ControlBuf.nxtHdr ⟨bytes, j⟩ pos = ControlBuf.nxtHdr ⟨bytes, k⟩ pos := by
  unfold ControlBuf.nxtHdr
  rw [(header_junk (j := j) (k := k) h).1]
  rfl

theorem messagesFrom_junk (fuel : Nat) {pos : Nat} (h : pos + 16 ≤ bytes.length)
    (first : Bool) (start : Nat) :
    messagesFrom ⟨bytes, j⟩ first start (headersFrom ⟨bytes, j⟩ fuel pos) =
      messagesFrom ⟨bytes, k⟩ first start (headersFrom ⟨bytes, k⟩ fuel pos) := by
  induction fuel generalizing pos first start with
  | zero => rfl
  | succ fuel ih =>
      rw [headersFrom, headersFrom, ← nxtHdr_junk (j := j) (k := k) h]
      cases hn : ControlBuf.nxtHdr ⟨bytes, j⟩ pos with
      | none => simp only [messagesFrom]
      | some next =>
          obtain ⟨_, hgot, hend⟩ := nxtHdr_some hn
          have hgot : next + 16 ≤ bytes.length := hgot
          dsimp only
          rw [messagesFrom, messagesFrom, cmsgWidth_junk (k := k) first h (by omega), ih hgot]

theorem messages_junk : messages ⟨bytes, j⟩ = messages ⟨bytes, k⟩ := by
  have hf : ControlBuf.firstHdr ⟨bytes, j⟩ = ControlBuf.firstHdr ⟨bytes, k⟩ := rfl
  unfold messages headers
  rw [← hf]
  cases hp : ControlBuf.firstHdr ⟨bytes, j⟩ with
  | none => rfl
  | some pos =>
      have hpos : pos + 16 ≤ bytes.length := by
        unfold ControlBuf.firstHdr cmsgHdrSize ControlBuf.got at hp
        split at hp
        · have := Option.some.inj hp
          simp only at *
          omega
        · simp at hp
      exact messagesFrom_junk bytes.length hpos true 1

end Junk

/-! ## The output array -/

section Bounded

variable {init : Nat → Byte} {c : ControlBuf}

theorem rightsLoop_bounded (data n left : Nat) (st : CmsgOut) :
    (rightsLoop c data n left st).out.Bounded ↔ st.out.Bounded := by
  induction left generalizing st with
  | zero => rfl
  | succ left ih =>
      rw [rightsLoop]
      split
      · rename_i hlt
        rw [ih, CmsgOut.print_out, CmsgOut.use_out, OutBuf.bounded_snprintf]
        exact and_iff_right hlt.le
      · rfl

@[simp] theorem rightsLoop_size (data n left : Nat) (st : CmsgOut) :
    (rightsLoop c data n left st).out.size = st.out.size := by
  induction left generalizing st with
  | zero => rfl
  | succ left ih =>
      rw [rightsLoop]
      split
      · rw [ih, CmsgOut.print_out, CmsgOut.use_out, OutBuf.snprintf_size]
      · rfl

@[simp] theorem cmsgBody_size (pos : Nat) (first : Bool) (st : CmsgOut) :
    (cmsgBody c pos first st).1.out.size = st.out.size := by
  unfold cmsgBody
  dsimp only
  split_ifs <;> simp

@[simp] theorem cmsgList_size (hs : List Nat) (first : Bool) (st : CmsgOut) :
    (cmsgList c hs first st).out.size = st.out.size := by
  induction hs generalizing first st with
  | nil => rfl
  | cons pos rest ih =>
      by_cases hlt : st.out.oi < st.out.size
      · rw [cmsgList_cons c pos rest first hlt, ih, cmsgBody_size]
      · rw [cmsgList_full c _ first hlt]

theorem formatControl_size (c : ControlBuf) (out : OutBuf) :
    (formatControl c out).out.size = out.size := by
  unfold formatControl
  dsimp only
  split
  · simp
  · cases c.firstHdr with
    | none => simp
    | some pos => simp [cmsgLoop_eq]

/-- One message keeps the array bounded exactly when its level fits. -/
theorem cmsgBody_bounded (pos : Nat) (first : Bool) (st : CmsgOut)
    (hlt : st.out.oi < st.out.size) :
    (cmsgBody c pos first st).1.out.Bounded ↔
      st.out.oi + headWidth first ≤ st.out.size ∧ st.out.Bounded := by
  set st₂ := ((st.use pos cmsgHdrSize).print (cmsgHead first)).print
    (levelText (c.cmsgLevel pos)) with hst₂
  have h₂ : st₂.out.Bounded ↔
      st.out.oi + headWidth first ≤ st.out.size ∧ st.out.Bounded := by
    simp only [hst₂, CmsgOut.print_out, CmsgOut.use_out, OutBuf.bounded_snprintf,
      OutBuf.snprintf_oi, OutBuf.snprintf_size, length_cmsgHead]
    exact and_congr_right fun _ => and_iff_right hlt.le
  rw [← h₂]
  unfold cmsgBody
  dsimp only
  rw [← hst₂]
  split
  · rfl
  · rename_i hroom
    have hle : st₂.out.oi ≤ st₂.out.size := by omega
    split
    · rw [OutBuf.bounded_append, rightsLoop_bounded, CmsgOut.print_out,
        OutBuf.bounded_snprintf]
      exact and_iff_right hle
    · split
      · rw [CmsgOut.print_out, CmsgOut.use_out, OutBuf.bounded_snprintf]
        exact and_iff_right hle
      · rw [CmsgOut.print_out, OutBuf.bounded_snprintf]
        exact and_iff_right hle

/-- The messages at `hs` keep the array bounded exactly when the level of each
one that starts inside it fits. -/
theorem cmsgList_bounded (hs : List Nat) (first : Bool) (st : CmsgOut) {t : Text}
    (h : st.out.Shows init t) :
    (cmsgList c hs first st).out.Bounded ↔
      st.out.Bounded ∧ ∀ msg ∈ messagesFrom c first t.length hs,
        msg.start < st.out.size → msg.start + headWidth msg.first ≤ st.out.size := by
  induction hs generalizing first st t with
  | nil => simp [cmsgList, messagesFrom]
  | cons pos rest ih =>
      rw [messagesFrom]
      simp only [List.forall_mem_cons]
      by_cases hlt : st.out.oi < st.out.size
      · have hoi := h.oi_eq hlt
        have hnext := ih false _ (cmsgBody_shows (c := c) pos first st h)
        rw [cmsgBody_size, List.length_append, length_cmsgText] at hnext
        rw [cmsgList_cons c pos rest first hlt, hnext, cmsgBody_bounded pos first st hlt, hoi]
        constructor
        · rintro ⟨⟨hhead, hbounded⟩, hrest⟩
          exact ⟨hbounded, fun _ => hhead, hrest⟩
        · rintro ⟨hbounded, hhead, hrest⟩
          exact ⟨⟨hhead (by omega), hbounded⟩, hrest⟩
      · -- nothing is printed, and every later message starts past the end
        rw [cmsgList_full c _ first hlt]
        have hlen : st.out.size ≤ t.length := by rcases h.off with ho | ho <;> omega
        refine ⟨fun hb => ⟨hb, fun hs => absurd hs (by omega), fun msg hmem hs => ?_⟩,
          And.left⟩
        have := start_le_of_mem hmem
        omega

theorem formatControl_bounded {size : Nat} (hsize : size < 2 ^ 64)
    (c : ControlBuf) (init : Nat → Byte) :
    (formatControl c (OutBuf.new size init)).out.Bounded ↔
      ∀ msg ∈ messages c, msg.start < size → msg.start + headWidth msg.first ≤ size := by
  set st : CmsgOut := CmsgOut.print ⟨OutBuf.new size init, []⟩ (lit "[") with hst
  have hshows : st.out.Shows init (lit "[") := (OutBuf.shows_new hsize init).snprintf (lit "[")
  have hone : (lit "[").length = 1 := by with_unfolding_all decide
  have hbounded : ∀ s : Text, (CmsgOut.print ⟨OutBuf.new size init, []⟩ s).out.Bounded := by
    intro s
    rw [CmsgOut.print_out, OutBuf.bounded_snprintf]
    exact ⟨Nat.zero_le _, OutBuf.bounded_new size init⟩
  unfold formatControl messages
  dsimp only
  rw [← hst]
  split
  · rename_i hgot
    have : headers c = [] := by simp [headers, ControlBuf.firstHdr, cmsgHdrSize, hgot]
    rw [this]
    exact ⟨fun _ => by simp [messagesFrom], fun _ => hbounded (lit "[]")⟩
  · rw [OutBuf.bounded_append]
    cases hf : c.firstHdr with
    | none =>
        have : headers c = [] := by simp [headers, hf]
        rw [this]
        exact ⟨fun _ => by simp [messagesFrom], fun _ => hbounded (lit "[")⟩
    | some pos =>
        have hloop := cmsgLoop_headers hf 0 true st
        rw [Nat.add_zero] at hloop
        have hlist := cmsgList_bounded (c := c) (headers c) true st hshows
        rw [hone] at hlist
        dsimp only
        rw [hloop, hlist]
        have hs : st.out.size = size := OutBuf.snprintf_size _ _
        rw [hs]
        exact and_iff_right (hbounded (lit "["))

end Bounded

/-- Every size `format_cmsg` passes to `snprintf` is the real room left, and no
byte is written past the array, exactly when no message after the first starts at
one of the characters 1011 to 1023 of the text.  Where the messages start depends
on the copied bytes alone, not on what the array held before. -/
theorem formatCmsg_inBounds_iff (host : Host) (m : Mem) (addr : Word) (controllen : Nat)
    (init : Nat → Byte) :
    (((∀ oi ∈ (formatCmsg host m addr controllen (OutBuf.new strArgBufLen init)).out.calls,
        oi ≤ strArgBufLen) ∧
      (formatCmsg host m addr controllen (OutBuf.new strArgBufLen init)).out.hi ≤
        strArgBufLen) ↔
    ∀ msg ∈ messages (readControl host m addr controllen), msg.first = false →
      msg.start < 1011 ∨ 1024 ≤ msg.start) ∧
    ∀ host' : Host, messages (readControl host' m addr controllen) =
      messages (readControl host m addr controllen) := by
  refine ⟨?_, fun host' => messages_junk⟩
  have hsize : strArgBufLen < 2 ^ 64 := by decide
  set c := readControl host m addr controllen with hc
  have hunfold : formatCmsg host m addr controllen (OutBuf.new strArgBufLen init) =
      formatControl c (OutBuf.new strArgBufLen init) := rfl
  rw [hunfold]
  have hshows := formatControl_shows hsize c init
  have hsz : (formatControl c (OutBuf.new strArgBufLen init)).out.size = strArgBufLen :=
    formatControl_size c _
  have hbounded := formatControl_bounded hsize c init
  unfold OutBuf.Bounded at hbounded
  rw [hsz] at hbounded
  have hhigh := hshows.high
  rw [OutBuf.Bounded, hsz] at hhigh
  constructor
  · rintro ⟨hcalls, _⟩ msg hmem hfirst
    have := hbounded.mp hcalls msg hmem
    simp only [headWidth, hfirst, Bool.false_eq_true, if_false, strArgBufLen] at this
    omega
  · intro hstart
    have hcalls := hbounded.mpr fun msg hmem hlt => by
      cases hf : msg.first with
      | true =>
          have := (messagesFrom_first hmem hf).2
          simp only [headWidth, strArgBufLen, if_true]
          omega
      | false =>
          have := hstart msg hmem hf
          simp only [headWidth, strArgBufLen, Bool.false_eq_true, if_false] at hlt ⊢
          omega
    exact ⟨hcalls, hhigh hcalls⟩

/-- A control buffer of empty messages of level 0 and type 0, wherever it is
read. -/
def emptyMessages : Mem := fun a => some (if a.toNat % 16 = 0 then 16 else 0)

/-- Twenty-three empty messages: the last one starts at character 1011, and the
level is printed with a size that has wrapped. -/
theorem formatCmsg_wraps :
    1025 ∈ (formatCmsg default emptyMessages 0x1000 368
      (OutBuf.new strArgBufLen fun _ => 0)).out.calls ∧
    strArgBufLen < (formatCmsg default emptyMessages 0x1000 368
      (OutBuf.new strArgBufLen fun _ => 0)).out.hi := by
  decide +kernel

/-! ## The control buffer -/

/-- Every recorded use of `cbuf` lies inside the copied bytes. -/
def UsedBelow (c : ControlBuf) (st : CmsgOut) : Prop := ∀ r ∈ st.used, r.1 + r.2 ≤ c.got

/-- How many descriptors of the data at `data` were copied whole. -/
def wholeFds (c : ControlBuf) (data : Nat) : Nat := (c.got - data) / 4

/-- The payload the decoder looks at lies inside the copied bytes, or the array of
`size` characters is full before the first byte outside would be looked at. -/
def Contained (c : ControlBuf) (size : Nat) (msg : Message) : Prop :=
  let data := msg.pos + cmsgHdrSize
  let typeAt := msg.start + headWidth msg.first + levelWidth (c.cmsgLevel msg.pos)
  (c.cmsgLevel msg.pos = solSocket ∧ c.cmsgType msg.pos = scmRights →
    c.numFds msg.pos ≤ wholeFds c data ∨
      size ≤ typeAt + 35 + fdsWidth c data 0 (wholeFds c data)) ∧
  (c.cmsgLevel msg.pos = solSocket ∧ c.cmsgType msg.pos = scmCredentials ∧
      c.cmsgLen msg.pos ≥ cmsgLenUcred →
    data + 12 ≤ c.got ∨ size ≤ typeAt)

theorem contained_junk {bytes : Text} {j k : Nat → Byte} {size : Nat} {msg : Message}
    (h : msg.pos + 16 ≤ bytes.length) :
    Contained ⟨bytes, j⟩ size msg ↔ Contained ⟨bytes, k⟩ size msg := by
  obtain ⟨hlen, hlevel, htype⟩ := header_junk (j := j) (k := k) h
  have hwhole : wholeFds ⟨bytes, j⟩ (msg.pos + cmsgHdrSize) =
      wholeFds ⟨bytes, k⟩ (msg.pos + cmsgHdrSize) := rfl
  have hfds : msg.pos + cmsgHdrSize + wholeFds ⟨bytes, k⟩ (msg.pos + cmsgHdrSize) * 4 ≤
      bytes.length := by
    have hgot : ControlBuf.got ⟨bytes, k⟩ = bytes.length := rfl
    rw [wholeFds, hgot, cmsgHdrSize]
    omega
  unfold Contained ControlBuf.numFds
  dsimp only
  rw [hlen, hlevel, htype, hwhole, fdsWidth_junk (k := k) hfds]
  rfl

theorem forall_contained_junk {bytes : Text} {j k : Nat → Byte} {size : Nat} :
    (∀ msg ∈ messages ⟨bytes, j⟩, Contained ⟨bytes, j⟩ size msg) ↔
      ∀ msg ∈ messages ⟨bytes, k⟩, Contained ⟨bytes, k⟩ size msg := by
  rw [messages_junk (j := j) (k := k)]
  exact forall₂_congr fun msg hmem => contained_junk (mem_headers (pos_mem_of_mem hmem))

theorem contained_of_le {c : ControlBuf} {size : Nat} {msg : Message} (h : size ≤ msg.start) :
    Contained c size msg := by
  refine ⟨fun _ => Or.inr ?_, fun _ => Or.inr ?_⟩
  · omega
  · omega

section Used

variable {init : Nat → Byte} {c : ControlBuf}

theorem usedBelow_use {st : CmsgOut} {pos len : Nat} :
    UsedBelow c (st.use pos len) ↔ pos + len ≤ c.got ∧ UsedBelow c st := by
  simp [UsedBelow]

theorem usedBelow_print {st : CmsgOut} {s : Text} : UsedBelow c (st.print s) ↔ UsedBelow c st :=
  Iff.rfl

/-- The descriptors looked at are those whose text starts inside the array. -/
theorem rightsLoop_used (data n left : Nat) (hleft : left ≤ n) (st : CmsgOut) {t : Text}
    (h : st.out.Shows init t) :
    UsedBelow c (rightsLoop c data n left st) ↔
      UsedBelow c st ∧ ∀ k, k < left →
        t.length + fdsWidth c data (n - left) k < st.out.size →
        data + (n - left + k) * 4 + 4 ≤ c.got := by
  induction left generalizing st t with
  | zero => simp [rightsLoop]
  | succ left ih =>
      set i := n - (left + 1) with hi
      have hi₁ : n - left = i + 1 := by omega
      rw [rightsLoop]
      split
      · rename_i hlt
        have hoi := h.oi_eq hlt
        have hnext := ih (by omega) ((st.use (data + i * 4) 4).print (fdText c data i))
          (h.snprintf (fdText c data i))
        rw [← hi, hnext, usedBelow_print, usedBelow_use, hi₁]
        simp only [CmsgOut.print_out, CmsgOut.use_out, OutBuf.snprintf_size,
          List.length_append]
        constructor
        · rintro ⟨⟨hfirst, hused⟩, hrest⟩
          refine ⟨hused, fun k hk hwidth => ?_⟩
          cases k with
          | zero => simpa using hfirst
          | succ k =>
              rw [fdsWidth_succ] at hwidth
              have := hrest k (by omega) (by omega)
              rwa [show i + (k + 1) = i + 1 + k by omega]
        · rintro ⟨hused, hall⟩
          have h0 := hall 0 (by omega) (by simp [fdsWidth]; omega)
          refine ⟨⟨by simpa using h0, hused⟩, fun k hk hwidth => ?_⟩
          have := hall (k + 1) (by omega) (by rw [fdsWidth_succ]; omega)
          rwa [show i + (k + 1) = i + 1 + k by omega] at this
      · rename_i hfull
        have hlen : st.out.size ≤ t.length := by rcases h.off with ho | ho <;> omega
        exact ⟨fun hu => ⟨hu, fun k _ hwidth => absurd hwidth (by omega)⟩, And.left⟩

/-- It is enough to look at the first descriptor that was not copied whole. -/
theorem forall_fds_iff {data n off size : Nat} (hdata : data ≤ c.got) :
    (∀ k, k < n → off + fdsWidth c data 0 k < size → data + (0 + k) * 4 + 4 ≤ c.got) ↔
      n ≤ wholeFds c data ∨ size ≤ off + fdsWidth c data 0 (wholeFds c data) := by
  unfold wholeFds
  constructor
  · intro h
    rcases Nat.lt_or_ge ((c.got - data) / 4) n with hlt | hge
    · right
      by_contra hroom
      have := h _ hlt (by omega)
      omega
    · exact Or.inl hge
  · rintro h k hk hwidth
    by_contra hout
    have hmono := fdsWidth_mono c data 0 (show (c.got - data) / 4 ≤ k by omega)
    omega

/-- One message stays inside the copied bytes exactly when it is `Contained`. -/
theorem cmsgBody_used (pos : Nat) (first : Bool) (st : CmsgOut) {t : Text}
    (h : st.out.Shows init t) (hlt : st.out.oi < st.out.size) (hpos : pos + 16 ≤ c.got) :
    UsedBelow c (cmsgBody c pos first st).1 ↔
      UsedBelow c st ∧ Contained c st.out.size ⟨pos, first, t.length⟩ := by
  set st₂ := ((st.use pos cmsgHdrSize).print (cmsgHead first)).print
    (levelText (c.cmsgLevel pos)) with hst₂
  have h₂ : st₂.out.Shows init (t ++ cmsgHead first ++ levelText (c.cmsgLevel pos)) :=
    (h.snprintf (cmsgHead first)).snprintf (levelText (c.cmsgLevel pos))
  have hused : UsedBelow c st₂ ↔ UsedBelow c st := by
    rw [hst₂, usedBelow_print, usedBelow_print, usedBelow_use]
    exact and_iff_right hpos
  have hoi : st₂.out.oi = t.length + headWidth first + levelWidth (c.cmsgLevel pos) := by
    simp only [hst₂, CmsgOut.print_out, CmsgOut.use_out, OutBuf.snprintf_oi, h.oi_eq hlt,
      length_cmsgHead, length_levelText]
  have hsz : st₂.out.size = st.out.size := by simp [hst₂]
  have hdata : pos + cmsgHdrSize ≤ c.got := hpos
  rw [← hused]
  unfold cmsgBody Contained
  dsimp only
  rw [← hst₂, ← hoi, ← hsz]
  split
  · -- no room for the type: nothing of the payload is looked at
    rename_i hfull
    exact (and_iff_left ⟨fun _ => Or.inr (by omega), fun _ => Or.inr hfull⟩).symm
  · rename_i hroom
    split
    · rename_i hr
      have hnot : ¬ (c.cmsgLevel pos = solSocket ∧ c.cmsgType pos = scmCredentials ∧
          c.cmsgLen pos ≥ cmsgLenUcred) := by
        rintro ⟨_, ht, _⟩
        rw [hr.2] at ht
        exact absurd ht (by decide)
      have hlen : (lit ", cmsg_type=SCM_RIGHTS, cmsg_data=[").length = 35 := by with_unfolding_all decide
      have hloop := rightsLoop_used (c := c) (pos + cmsgHdrSize) (c.numFds pos) (c.numFds pos)
        (le_refl _) (st₂.print (lit ", cmsg_type=SCM_RIGHTS, cmsg_data=[")) (h₂.snprintf _)
      rw [Nat.sub_self, CmsgOut.print_out, OutBuf.snprintf_size, List.length_append, hlen,
        ← h₂.oi_eq (by omega), forall_fds_iff hdata, usedBelow_print] at hloop
      exact hloop.trans (and_congr_right fun _ =>
        ⟨fun hin => ⟨fun _ => hin, fun hc => absurd hc hnot⟩, fun hin => hin.1 hr⟩)
    · rename_i hr
      split
      · rename_i hcred
        rw [usedBelow_print, usedBelow_use]
        constructor
        · exact fun ⟨hin, hu⟩ => ⟨hu, fun hc => absurd hc hr, fun _ => Or.inl hin⟩
        · exact fun ⟨hu, _, hin⟩ => ⟨(hin hcred).resolve_right (by omega), hu⟩
      · rename_i hcred
        rw [usedBelow_print]
        exact (and_iff_left ⟨fun hc => absurd hc hr, fun hc => absurd hc hcred⟩).symm

theorem cmsgList_used (hs : List Nat) (hin : ∀ p ∈ hs, p + 16 ≤ c.got) (first : Bool)
    (st : CmsgOut) {t : Text} (h : st.out.Shows init t) :
    UsedBelow c (cmsgList c hs first st) ↔
      UsedBelow c st ∧
        ∀ msg ∈ messagesFrom c first t.length hs, Contained c st.out.size msg := by
  induction hs generalizing first st t with
  | nil => simp [cmsgList, messagesFrom]
  | cons pos rest ih =>
      rw [messagesFrom]
      simp only [List.forall_mem_cons] at hin ⊢
      by_cases hlt : st.out.oi < st.out.size
      · have hnext := ih hin.2 false _ (cmsgBody_shows (c := c) pos first st h)
        rw [cmsgBody_size, List.length_append, length_cmsgText] at hnext
        rw [cmsgList_cons c pos rest first hlt, hnext,
          cmsgBody_used pos first st h hlt hin.1, and_assoc]
      · rw [cmsgList_full c _ first hlt]
        have hlen : st.out.size ≤ t.length := by rcases h.off with ho | ho <;> omega
        refine ⟨fun hu => ⟨hu, contained_of_le hlen, fun msg hmem => ?_⟩, And.left⟩
        have := start_le_of_mem hmem
        exact contained_of_le (by omega)

end Used

/-- Every byte of `cbuf` that `format_cmsg` uses was copied from the tracee,
exactly when the payload of every message it shows is contained in the copied
bytes; and that, too, depends on the copied bytes alone. -/
theorem formatCmsg_usesOnlyCopied_iff (host : Host) (m : Mem) (addr : Word) (controllen : Nat)
    (init : Nat → Byte) :
    ((∀ r ∈ (formatCmsg host m addr controllen (OutBuf.new strArgBufLen init)).used,
        r.1 + r.2 ≤ (readControl host m addr controllen).got) ↔
    ∀ msg ∈ messages (readControl host m addr controllen),
      Contained (readControl host m addr controllen) strArgBufLen msg) ∧
    ∀ host' : Host, (∀ msg ∈ messages (readControl host' m addr controllen),
        Contained (readControl host' m addr controllen) strArgBufLen msg) ↔
      ∀ msg ∈ messages (readControl host m addr controllen),
        Contained (readControl host m addr controllen) strArgBufLen msg := by
  refine ⟨?_, fun host' => forall_contained_junk⟩
  set c := readControl host m addr controllen with hc
  set st : CmsgOut := CmsgOut.print ⟨OutBuf.new strArgBufLen init, []⟩ (lit "[") with hst
  have hshows : st.out.Shows init (lit "[") :=
    (OutBuf.shows_new (by decide) init).snprintf (lit "[")
  have hone : (lit "[").length = 1 := by with_unfolding_all decide
  have hnone : headers c = [] →
      ∀ msg ∈ messages c, Contained c strArgBufLen msg := by
    intro hnil
    simp [messages, hnil, messagesFrom]
  unfold formatCmsg formatControl
  dsimp only
  rw [← hc, ← hst]
  split
  · rename_i hgot
    have hnil : headers c = [] := by simp [headers, ControlBuf.firstHdr, cmsgHdrSize, hgot]
    exact ⟨fun _ => hnone hnil, fun _ r hr => by simp at hr⟩
  · cases hf : c.firstHdr with
    | none =>
        have hnil : headers c = [] := by simp [headers, hf]
        exact ⟨fun _ => hnone hnil, fun _ r hr => by simp [hst] at hr⟩
    | some pos =>
        have hloop := cmsgLoop_headers hf 0 true st
        rw [Nat.add_zero] at hloop
        have hlist := cmsgList_used (c := c) (headers c) (fun p hp => mem_headers hp) true st
          hshows
        have hs : st.out.size = strArgBufLen := OutBuf.snprintf_size _ _
        rw [hone, hs] at hlist
        dsimp only
        rw [hloop]
        have hu : UsedBelow c st := by intro r hr; simp [hst] at hr
        exact hlist.trans (and_iff_right hu)

/-- One header that announces a descriptor and nothing after it. -/
def announcedFd : Mem := fun a =>
  if a = 0x1000 then some 20
  else if a = 0x1008 ∨ a = 0x100c then some 1
  else if a.toNat < 0x1010 then some 0 else none

/-- The sixteen bytes of the header are copied, the descriptor printed is not. -/
theorem formatCmsg_usesUncopied :
    (readControl default announcedFd 0x1000 20).got = 16 ∧
    (16, 4) ∈ (formatCmsg default announcedFd 0x1000 20
      (OutBuf.new strArgBufLen fun _ => 0)).used := by
  with_unfolding_all decide

end MiniStrace
