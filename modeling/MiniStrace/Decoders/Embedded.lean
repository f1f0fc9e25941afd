/-
  Decoders/Embedded.lean --- the texts that hold bytes of the tracee as they are.

  THE FOUR PLACES.  Strings and buffers go through the escaping loops and come out
  without control bytes.  A socket path, the target of a descriptor and the names of
  directory entries are printed with `%s` or `%.*s`, and a message header holds the
  socket path of its `msg_name`.  For each of them this file names the bytes that are
  embedded and shows that the slot is free of control bytes exactly when they are.

  WHAT FITS.  Socket paths and descriptor targets are short enough to be shown whole.
  A list of directory entries is cut at the end of the array, and `direntNames` counts
  the characters that are still shown.
-/
import MiniStrace.Decoders.CmsgBounds
import MiniStrace.Decoders.ListText

set_option autoImplicit false

namespace MiniStrace

open CLib OutBuf

/-! ## Embedding -/

/-- The text `t` holds `raw` with nothing but printable characters around it, and an
array of `n` cells keeps all of `raw`. -/
def Embeds (n : Nat) (t raw : Text) : Prop :=
  ∃ pre post, t = pre ++ raw ++ post ∧ Clean pre ∧ Clean post ∧ (∀ c ∈ raw, c ≠ 0) ∧
    pre.length + raw.length ≤ n - 1

theorem embeds_nil {t : Text} (h : Clean t) (n : Nat) : Embeds n t [] :=
  ⟨[], t, rfl, clean_nil, h, by simp, by simp⟩

theorem Embeds.clean_cut_iff {n : Nat} {t raw : Text} (h : Embeds n t raw) :
    Clean (cut n t) ↔ Clean raw := by
  obtain ⟨pre, post, rfl, hpre, hpost, hz, hlen⟩ := h
  have hfront : ∀ c ∈ pre ++ raw, c ≠ 0 := by
    intro c hc
    rcases List.mem_append.mp hc with hc | hc
    · exact hpre.ne_zero hc
    · exact hz c hc
  rw [cut_append hfront (by rw [List.length_append]; exact hlen), clean_append, clean_append]
  exact ⟨fun h => h.1.2, fun h => ⟨⟨hpre, h⟩, clean_cut hpost _⟩⟩

/-- An embedding stays one when printable characters are put around it. -/
theorem Embeds.around {n k : Nat} {t raw pre post : Text} (h : Embeds k t raw) (hpre : Clean pre)
    (hpost : Clean post) (hlen : pre.length + k ≤ n) (hk : 0 < k) :
    Embeds n (pre ++ t ++ post) raw := by
  obtain ⟨pre', post', rfl, hpre', hpost', hz, hlen'⟩ := h
  refine ⟨pre ++ pre', post' ++ post, by simp only [List.append_assoc],
    clean_append.mpr ⟨hpre, hpre'⟩, clean_append.mpr ⟨hpost', hpost⟩, hz, ?_⟩
  rw [List.length_append]
  omega

theorem Embeds.mono {n k : Nat} {t raw : Text} (h : Embeds k t raw) (hk : k ≤ n) :
    Embeds n t raw := by
  obtain ⟨pre, post, heq, hpre, hpost, hz, hlen⟩ := h
  exact ⟨pre, post, heq, hpre, hpost, hz, by omega⟩

/-! ## Descriptor targets -/

/-- The target `format_hex_or_fd_arg` prints. -/
def fdPath (t : Tracee) (raw : Word) (isFdArg : Bool) : Text :=
  match if isFdArg then resolveFdPath t raw.toInt 192 else none with
  | some path => cstr path
  | none => []

theorem hexOrFdText_embeds (t : Tracee) (raw : Word) (isFdArg : Bool) :
    Embeds strArgBufLen (hexOrFdText t raw isFdArg) (fdPath t raw isFdArg) := by
  have hlit : Clean (lit "<") ∧ (lit "<").length = 1 ∧ Clean (lit ">") := by
    with_unfolding_all decide
  unfold hexOrFdText fdPath
  cases hpath : (if isFdArg then resolveFdPath t raw.toInt 192 else none) with
  | none => exact embeds_nil (clean_hex0x _) _
  | some path =>
      refine ⟨hex0x raw.toNat ++ lit "<", lit ">", rfl, ?_, hlit.2.2, fun c => cstr_ne_zero, ?_⟩
      · exact clean_append.mpr ⟨clean_hex0x _, hlit.1⟩
      · have hshort : (cstr path).length ≤ 191 := by
          split_ifs at hpath
          unfold resolveFdPath at hpath
          split_ifs at hpath
          obtain ⟨target, -, rfl⟩ := Option.map_eq_some_iff.mp hpath
          refine le_trans (List.takeWhile_sublist _).length_le ?_
          rw [List.length_take]
          omega
        have hhex := length_addr_le raw
        have hbuf : strArgBufLen = 1024 := rfl
        rw [List.length_append, hlit.2.1]
        dsimp only
        omega

theorem hexOrFdText_ne_nil (t : Tracee) (raw : Word) (isFdArg : Bool) :
    hexOrFdText t raw isFdArg ≠ [] := by
  unfold hexOrFdText
  split <;> simp [(plain_hex0x _).ne_nil]

theorem formatHexOrFdArg_clean_iff (t : Tracee) (raw : Word) (isFdArg : Bool) (init : Nat → Byte) :
    Clean (formatHexOrFdArg t raw isFdArg (new strArgBufLen init)).str ↔
      Clean (fdPath t raw isFdArg) := by
  have hstr := (fills_snprintf (hexOrFdText t raw isFdArg)).str_eq_cut (by decide) strArgBufLen_lt
    (by decide) (hexOrFdText_ne_nil t raw isFdArg) init
  rw [formatHexOrFdArg, hstr]
  exact (hexOrFdText_embeds t raw isFdArg).clean_cut_iff

/-- The target `format_dirfd` prints. -/
def dirfdPath (t : Tracee) (raw : Word) (isFdArg : Bool) : Text :=
  if signed 32 (raw.toNat % 2 ^ 32) = atFdcwd then [] else fdPath t raw isFdArg

theorem formatDirfd_clean_iff (t : Tracee) (raw : Word) (isFdArg : Bool) (init : Nat → Byte) :
    Clean (formatDirfd t raw isFdArg (new strArgBufLen init)).str ↔
      Clean (dirfdPath t raw isFdArg) := by
  have hcwd : Plain (lit "AT_FDCWD") := by with_unfolding_all decide
  unfold formatDirfd dirfdPath
  split
  · exact iff_of_true ((fills_snprintf _).clean_str hcwd (by decide) strArgBufLen_lt (by decide) init)
      clean_nil
  · exact formatHexOrFdArg_clean_iff t raw isFdArg init

/-! ## Socket paths -/

/-- The path in the bytes of an `AF_UNIX` address, after the `@` of an abstract one. -/
def unixPath (raw : Text) : Text :=
  let pathLen := if raw.length > 2 then raw.length - 2 else 0
  if pathLen > 0 ∧ raw.getD 2 0 = 0 then cstrPrec (pathLen - 1) (raw.drop 3)
  else cstrPrec pathLen (raw.drop 2)

/-- The path `format_sockaddr` prints. -/
def sunPath (m : Mem) (addr : Word) (addrlen : Nat) : Text :=
  if addr = 0 then []
  else
    let raw := readChildRaw m addr (sockaddrWant addrlen)
    if raw.length < 2 ∨ field raw 0 2 ≠ 1 then [] else unixPath raw

theorem length_cstrPrec_le (n : Nat) (t : Text) : (cstrPrec n t).length ≤ n := by
  refine le_trans (length_cstr_le _) ?_
  rw [List.length_take]
  exact min_le_left _ _

theorem length_unixPath_le (raw : Text) : (unixPath raw).length ≤ raw.length := by
  unfold unixPath
  dsimp only
  generalize hlen : (if raw.length > 2 then raw.length - 2 else 0) = pathLen
  have hle : pathLen ≤ raw.length := by
    rw [← hlen]
    split <;> omega
  split
  · exact le_trans (length_cstrPrec_le _ _) (by omega)
  · exact le_trans (length_cstrPrec_le _ _) hle

theorem unixPath_ne_zero (raw : Text) : ∀ c ∈ unixPath raw, c ≠ 0 := by
  intro c hc
  unfold unixPath at hc
  dsimp only at hc
  generalize (if raw.length > 2 then raw.length - 2 else 0) = pathLen at hc
  split at hc <;> exact cstr_ne_zero hc

/-- The texts of a socket address: printable, or a socket path between printable ends. -/
theorem sockaddrBytesText_embeds {host : Host} (hn : host.CleanNames) {raw : Text}
    (hlen : raw.length ≤ 128) :
    Embeds 162 (sockaddrBytesText host raw) (if field raw 0 2 ≠ 1 then [] else unixPath raw) := by
  have hlit : Clean (lit "\x7bsa_family=AF_INET, sin_port=htons(") ∧
      Clean (lit "), sin_addr=inet_addr(\"") ∧ Clean (lit ".") ∧ Clean (lit "\")\x7d") ∧
      Clean (lit "\x7bsa_family=AF_INET6, sin6_port=htons(") ∧
      Clean (lit "), sin6_addr=inet_pton(AF_INET6, \"") ∧ Clean (lit "\x7bsa_family=AF_INET6, ...\x7d") ∧
      Clean (lit "\x7bsa_family=") ∧ Clean (lit ", ...\x7d") := by with_unfolding_all decide
  have hunix : Clean (lit "\x7bsa_family=AF_UNIX, sun_path=\"@") ∧
      (lit "\x7bsa_family=AF_UNIX, sun_path=\"@").length = 31 ∧
      Clean (lit "\x7bsa_family=AF_UNIX, sun_path=\"") ∧
      (lit "\x7bsa_family=AF_UNIX, sun_path=\"").length = 30 ∧ Clean (lit "\"\x7d") := by
    with_unfolding_all decide
  obtain ⟨hopen, hlopen, hplain, hlplain, hclose⟩ := hunix
  have hpath := length_unixPath_le raw
  have hz := unixPath_ne_zero raw
  unfold sockaddrBytesText
  dsimp only
  by_cases h2 : field raw 0 2 = 2 ∧ raw.length ≥ 8
  · rw [if_pos h2, if_pos (by omega : field raw 0 2 ≠ 1)]
    exact embeds_nil (by simp [hlit]) _
  rw [if_neg h2]
  by_cases h10 : field raw 0 2 = 10 ∧ raw.length ≥ 8 + 16
  · rw [if_pos h10, if_pos (by omega : field raw 0 2 ≠ 1)]
    split
    · rename_i ipstr hip
      exact embeds_nil (by simp [hlit, hn.inetNtop6 _ _ hip]) _
    · exact embeds_nil hlit.2.2.2.2.2.2.1 _
  rw [if_neg h10]
  by_cases h1 : field raw 0 2 = 1
  · rw [if_pos h1, if_neg (not_not_intro h1)]
    -- an abstract name is printed after an `@`
    by_cases habs : (if raw.length > 2 then raw.length - 2 else 0) > 0 ∧ raw.getD 2 0 = 0
    · have hpiece : unixPath raw =
          cstrPrec ((if raw.length > 2 then raw.length - 2 else 0) - 1) (raw.drop 3) := if_pos habs
      rw [if_pos habs, ← hpiece]
      exact ⟨_, _, rfl, hopen, hclose, hz, by omega⟩
    · have hpiece : unixPath raw =
          cstrPrec (if raw.length > 2 then raw.length - 2 else 0) (raw.drop 2) := if_neg habs
      rw [if_neg habs, ← hpiece]
      exact ⟨_, _, rfl, hplain, hclose, hz, by omega⟩
  · rw [if_neg h1, if_pos h1]
    exact embeds_nil (by simp [hlit]) _

theorem sockaddrText_embeds {host : Host} (hn : host.CleanNames) (m : Mem) (addr : Word)
    (addrlen : Nat) : Embeds 162 (sockaddrText host m addr addrlen) (sunPath m addr addrlen) := by
  unfold sockaddrText sunPath
  split
  · exact embeds_nil plain_null.clean _
  · dsimp only
    have hlen : (readChildRaw m addr (sockaddrWant addrlen)).length ≤ 128 := by
      refine le_trans (length_readChildRaw_le _ _ _) ?_
      unfold sockaddrWant
      dsimp only
      split_ifs <;> omega
    have hbytes := sockaddrBytesText_embeds hn hlen
    by_cases hshort : (readChildRaw m addr (sockaddrWant addrlen)).length < 2
    · rw [if_pos hshort, if_pos (Or.inl hshort)]
      exact embeds_nil (clean_hex0x _) _
    · rw [if_neg hshort]
      simpa only [hshort, false_or] using hbytes

theorem formatSockaddr_clean_iff {host : Host} (hn : host.CleanNames) (m : Mem) (addr : Word)
    (addrlen : Nat) (init : Nat → Byte) :
    Clean (formatSockaddr host m addr addrlen (new strArgBufLen init)).str ↔
      Clean (sunPath m addr addrlen) := by
  rw [formatSockaddr_str]
  exact ((sockaddrText_embeds hn m addr addrlen).mono (by decide)).clean_cut_iff

/-! ## Message headers -/

theorem fdsText_clean (c : ControlBuf) (data start n : Nat) : Clean (fdsText c data start n) := by
  have hsep : Clean (lit ", ") := by with_unfolding_all decide
  have hfd : ∀ i, Clean (fdText c data i) := by
    intro i
    rw [fdText, clean_append]
    refine ⟨?_, clean_decInt _⟩
    split
    · exact clean_nil
    · exact hsep
  intro b hb
  rw [fdsText] at hb
  obtain ⟨i, -, hb⟩ := List.mem_flatMap.mp hb
  exact hfd i b hb

theorem cmsgText_clean (c : ControlBuf) (first : Bool) (pos : Nat) : Clean (cmsgText c first pos) := by
  have hhead : Clean (lit ", ") ∧ Clean (lit "\x7bcmsg_level=") ∧ Clean (lit "SOL_SOCKET") := by
    with_unfolding_all decide
  have hlit : Clean (lit ", cmsg_type=SCM_RIGHTS, cmsg_data=[") ∧ Clean (lit "]\x7d") ∧
      Clean (lit ", cmsg_type=SCM_CREDENTIALS, cmsg_data=\x7bpid=") ∧ Clean (lit ", uid=") ∧
      Clean (lit ", gid=") ∧ Clean (lit "\x7d\x7d") ∧ Clean (lit ", cmsg_type=0x") ∧
      Clean (lit ", cmsg_len=") ∧ Clean (lit "\x7d") := by with_unfolding_all decide
  have hfirst : Clean (cmsgHead first) := by
    unfold cmsgHead
    cases first <;> simp [hhead]
  have hlevel : Clean (levelText (c.cmsgLevel pos)) := by
    unfold levelText
    split <;> simp [hhead]
  have hpayload : Clean (payloadText c pos) := by
    unfold payloadText
    dsimp only
    split_ifs <;> simp [hlit, fdsText_clean, credText, otherText]
  exact clean_append.mpr ⟨clean_append.mpr ⟨hfirst, hlevel⟩, hpayload⟩

theorem controlText_plain (c : ControlBuf) : Plain (controlText c) := by
  have hlit : Plain (lit "[]") ∧ Plain (lit "[") ∧ Clean (lit "]") := by with_unfolding_all decide
  have htexts : ∀ (hs : List Nat) (first : Bool), Clean (cmsgTexts c first hs) := by
    intro hs
    induction hs with
    | nil => exact fun _ => clean_nil
    | cons pos rest ih => exact fun first => clean_append.mpr ⟨cmsgText_clean c first pos, ih false⟩
  unfold controlText
  split
  · exact hlit.1
  · exact (hlit.2.1.append (htexts _ true)).append hlit.2.2

theorem formatCmsg_clean (host : Host) (m : Mem) (addr : Word) (controllen : Nat)
    (init : Nat → Byte) : Clean (formatCmsg host m addr controllen (new strArgBufLen init)).out.str := by
  have hshows := formatControl_shows strArgBufLen_lt (readControl host m addr controllen) init
  have hsize : (formatControl (readControl host m addr controllen)
      (new strArgBufLen init)).out.size = strArgBufLen := formatControl_size _ _
  have hplain := controlText_plain (readControl host m addr controllen)
  rw [formatCmsg, hshows.str_eq_cut (by rw [hsize]; decide) hplain.ne_nil]
  exact clean_cut hplain.clean _

/-- The text of `msg_name`. -/
def msgNameText (host : Host) (m : Mem) (hdr : Text) : Text :=
  if BitVec.ofNat 64 (field hdr 0 8) ≠ 0 then
    (formatSockaddr host m (BitVec.ofNat 64 (field hdr 0 8)) (field hdr 8 4)
      (new strArgBufLen host.junk)).str
  else lit "NULL"

/-- The text of a message header after `msg_name`. -/
def msgRestText (host : Host) (m : Mem) (totalBytes : Int) (hdr : Text) : Text :=
  lit ", msg_iov=" ++ (formatIovecBuf host m (BitVec.ofNat 64 (field hdr 16 8)) (field hdr 24 8)
      totalBytes (new strArgBufLen host.junk)).str ++ lit ", msg_control=" ++
    (if BitVec.ofNat 64 (field hdr 32 8) ≠ 0 ∧ field hdr 40 8 > 0 then
      (formatCmsg host m (BitVec.ofNat 64 (field hdr 32 8)) (field hdr 40 8)
        (new strArgBufLen host.junk)).out.str
    else lit "NULL") ++
    (lit ", msg_flags=" ++
      (formatMsgFlags (BitVec.ofNat 64 (field hdr 48 4)) (new 128 host.junk)).str ++ lit "\x7d")

/-- The text of a message header. -/
def msghdrText (host : Host) (m : Mem) (totalBytes : Int) (hdr : Text) : Text :=
  lit "\x7bmsg_name=" ++ msgNameText host m hdr ++ msgRestText host m totalBytes hdr

theorem formatMsghdr_fills (host : Host) (m : Mem) (addr : Word) (totalBytes : Int) :
    Fills 1 (formatMsghdr host m addr totalBytes)
      (structText m addr 56 (msghdrText host m totalBytes)) := by
  refine formatStruct_fills (le_refl 1) (fun hdr => ?_) m addr
  have hchain := ((((((fills_snprintf (lit "\x7bmsg_name=")).append (msgNameText host m hdr)).append
    (lit ", msg_iov=")).append (formatIovecBuf host m (BitVec.ofNat 64 (field hdr 16 8))
      (field hdr 24 8) totalBytes (new strArgBufLen host.junk)).str).append
    (lit ", msg_control=")).append
    (if BitVec.ofNat 64 (field hdr 32 8) ≠ 0 ∧ field hdr 40 8 > 0 then
      (formatCmsg host m (BitVec.ofNat 64 (field hdr 32 8)) (field hdr 40 8)
        (new strArgBufLen host.junk)).out.str
    else lit "NULL")).append (lit ", msg_flags=" ++
      (formatMsgFlags (BitVec.ofNat 64 (field hdr 48 4)) (new 128 host.junk)).str ++ lit "\x7d")
  unfold msghdrText msgRestText
  simpa only [List.append_assoc, msgNameText] using hchain

theorem msgRestText_clean (host : Host) (m : Mem) (totalBytes : Int) (hdr : Text) :
    Clean (msgRestText host m totalBytes hdr) := by
  have hlit : Clean (lit ", msg_iov=") ∧ Clean (lit ", msg_control=") ∧ Clean (lit ", msg_flags=") ∧
      Clean (lit "\x7d") := by with_unfolding_all decide
  have hiov := (formatIovecBuf_fills host m (BitVec.ofNat 64 (field hdr 16 8)) (field hdr 24 8)
    totalBytes).clean_str (iovecText_plain _ _ _ _ _) (by decide) strArgBufLen_lt (by decide)
    host.junk
  have hflags : Clean (formatMsgFlags (BitVec.ofNat 64 (field hdr 48 4)) (new 128 host.junk)).str :=
    (formatFlags_plain (by with_unfolding_all decide) (by with_unfolding_all decide) _).clean_str
      (by decide) (by decide) _
  have hcontrol : Clean (if BitVec.ofNat 64 (field hdr 32 8) ≠ 0 ∧ field hdr 40 8 > 0 then
      (formatCmsg host m (BitVec.ofNat 64 (field hdr 32 8)) (field hdr 40 8)
        (new strArgBufLen host.junk)).out.str else lit "NULL") := by
    split
    · exact formatCmsg_clean host m _ _ _
    · exact plain_null.clean
  unfold msgRestText
  simp only [clean_append, hlit, hiov, hflags, hcontrol, and_self]

/-- The socket path in a message header. -/
def msgNamePath (m : Mem) (hdr : Text) : Text :=
  if BitVec.ofNat 64 (field hdr 0 8) ≠ 0 then
    sunPath m (BitVec.ofNat 64 (field hdr 0 8)) (field hdr 8 4)
  else []

theorem msghdrText_embeds {host : Host} (hn : host.CleanNames) (m : Mem) (totalBytes : Int)
    (hdr : Text) : Embeds strArgBufLen (msghdrText host m totalBytes hdr) (msgNamePath m hdr) := by
  have hopen : Clean (lit "\x7bmsg_name=") ∧ (lit "\x7bmsg_name=").length = 10 := by
    with_unfolding_all decide
  have hname : Embeds 162 (msgNameText host m hdr) (msgNamePath m hdr) := by
    unfold msgNameText msgNamePath
    split
    · rw [formatSockaddr_str]
      obtain ⟨pre, post, heq, hpre, hpost, hz, hlen⟩ :=
        sockaddrText_embeds hn m (BitVec.ofNat 64 (field hdr 0 8)) (field hdr 8 4)
      rw [heq, cut_append]
      · exact ⟨pre, _, rfl, hpre, clean_cut hpost _, hz, hlen⟩
      · intro c hc
        rcases List.mem_append.mp hc with hc | hc
        · exact hpre.ne_zero hc
        · exact hz c hc
      · rw [List.length_append]
        exact le_trans hlen (by decide)
    · exact embeds_nil plain_null.clean _
  exact hname.around hopen.1 (msgRestText_clean host m totalBytes hdr)
    (by rw [hopen.2]; decide) (by decide)

/-- The socket path `format_msghdr` prints. -/
def msghdrPath (m : Mem) (addr : Word) : Text :=
  if addr = 0 then []
  else
    let hdr := readChildRaw m addr 56
    if hdr.length < 56 then [] else msgNamePath m hdr

theorem formatMsghdr_clean_iff {host : Host} (hn : host.CleanNames) (m : Mem) (addr : Word)
    (totalBytes : Int) (init : Nat → Byte) :
    Clean (formatMsghdr host m addr totalBytes (new strArgBufLen init)).str ↔
      Clean (msghdrPath m addr) := by
  have hopen : lit "\x7bmsg_name=" ≠ [] := by with_unfolding_all decide
  have hne : ∀ hdr, msghdrText host m totalBytes hdr ≠ [] := fun hdr => by
    simp [msghdrText, hopen]
  have hembeds : Embeds strArgBufLen (structText m addr 56 (msghdrText host m totalBytes))
      (msghdrPath m addr) := by
    unfold structText msghdrPath
    split
    · exact embeds_nil plain_null.clean _
    · dsimp only
      split
      · exact embeds_nil (clean_hex0x _) _
      · exact msghdrText_embeds hn m totalBytes _
  rw [(formatMsghdr_fills host m addr totalBytes).str_eq_cut (by decide) strArgBufLen_lt (by decide)
    (structText_ne_nil hne m addr)]
  exact hembeds.clean_cut_iff

/-! ## Directory entries -/

/-- The text of an entry before its name. -/
def direntHead (count : Nat) (entry : Text) : Text :=
  (if count = 0 then [] else lit ", ") ++ lit "\x7bd_ino=" ++ dec (field entry 0 8) ++ lit ", d_off=" ++
    decInt (fieldInt entry 8 8) ++ lit ", d_reclen=" ++ dec (dReclen entry) ++ lit ", d_name=\""

/-- The text of an entry after its name. -/
def direntTail (entry : Text) : Text :=
  lit "\", d_type=" ++ lit (direntTypeName (field entry 18 1)) ++ lit "\x7d"

theorem dirent_split (count : Nat) (entry : Text) :
    (if count = 0 then [] else lit ", ") ++ direntText entry =
      direntHead count entry ++ dName entry ++ direntTail entry := by
  simp only [direntText, direntHead, direntTail, List.append_assoc]

theorem direntHead_clean (count : Nat) (entry : Text) : Clean (direntHead count entry) := by
  have hlit : Clean (lit ", ") ∧ Clean (lit "\x7bd_ino=") ∧ Clean (lit ", d_off=") ∧
      Clean (lit ", d_reclen=") ∧ Clean (lit ", d_name=\"") := by with_unfolding_all decide
  unfold direntHead
  split <;> simp [hlit]

theorem direntTail_clean (entry : Text) : Clean (direntTail entry) := by
  have hlit : Clean (lit "\", d_type=") ∧ Clean (lit "\x7d") := by with_unfolding_all decide
  have hnames : ∀ s ∈ ["DT_REG", "DT_DIR", "DT_LNK", "DT_CHR", "DT_BLK", "DT_FIFO", "DT_SOCK",
      "DT_UNKNOWN"], Clean (lit s) := by with_unfolding_all decide
  have htype : Clean (lit (direntTypeName (field entry 18 1))) := by
    refine hnames _ ?_
    unfold direntTypeName
    split <;> simp
  simp [direntTail, hlit, htype]

/-- The bytes of names among the next `room` characters of a list of entries. -/
def direntNames : Nat → Nat → List Text → Text
  | _, _, [] => []
  | room, count, entry :: entries =>
      let shown := room - (direntHead count entry).length
      (dName entry).take shown ++
        direntNames (shown - (dName entry).length - (direntTail entry).length) (count + 1) entries

theorem direntsText_clean_iff (room count : Nat) (entries : List Text) {rest : Text}
    (hrest : Clean rest) :
    Clean ((direntsText count entries ++ rest).take room) ↔
      Clean (direntNames room count entries) := by
  induction entries generalizing room count with
  | nil => exact iff_of_true (hrest.take room) clean_nil
  | cons entry entries ih =>
      rw [direntsText, direntNames, dirent_split, List.append_assoc, List.append_assoc,
        List.append_assoc, List.take_append, List.take_append, List.take_append]
      simp only [clean_append, ih]
      exact ⟨fun h => ⟨h.2.1, h.2.2.2⟩,
        fun h => ⟨(direntHead_clean _ _).take _, h.1, (direntTail_clean _).take _, h.2⟩⟩

theorem direntsText_ne_zero (count : Nat) (entries : List Text) :
    ∀ c ∈ direntsText count entries, c ≠ 0 := by
  induction entries generalizing count with
  | nil => simp [direntsText]
  | cons entry entries ih =>
      intro c hc
      rw [direntsText, dirent_split] at hc
      simp only [List.mem_append] at hc
      rcases hc with ((hc | hc) | hc) | hc
      · exact (direntHead_clean _ _).ne_zero hc
      · exact cstr_ne_zero hc
      · exact (direntTail_clean _).ne_zero hc
      · exact ih _ c hc

theorem getdentsTail_clean (w : GetdentsWalk) (got : Nat) : Clean (getdentsTail w got) := by
  have hlit : Clean (lit ", ") ∧ Clean (lit "...") ∧ Clean (lit "]") := by with_unfolding_all decide
  unfold getdentsTail
  split_ifs <;> simp [hlit]

/-- The names `format_getdents_buf` prints into an argument slot. -/
def getdentsNames (m : Mem) (addr : Word) (ret : Int) : Text :=
  if ret ≤ 0 then []
  else
    let want := if ret.toNat < getdentsMaxBytes then ret.toNat else getdentsMaxBytes
    let buf := readChildRaw m addr want
    if buf.length < getdentsHeaderSize then []
    else direntNames (strArgBufLen - 2) 0 (getdentsWalk buf 0 0).entries

theorem formatGetdentsBuf_clean_iff (m : Mem) (addr : Word) (ret : Int) (init : Nat → Byte) :
    Clean (formatGetdentsBuf m addr ret (new strArgBufLen init)).str ↔
      Clean (getdentsNames m addr ret) := by
  have hopen : Clean (lit "[") ∧ (lit "[").length = 1 := by with_unfolding_all decide
  rw [(formatGetdentsBuf_fills m addr ret).str_eq_cut (by decide) strArgBufLen_lt (by decide)
    (getdentsText_ne_nil m addr ret)]
  unfold getdentsText getdentsNames
  by_cases hret : ret ≤ 0
  · rw [if_pos hret, if_pos hret]
    exact (embeds_nil (clean_hex0x _) _).clean_cut_iff
  rw [if_neg hret, if_neg hret]
  dsimp only
  generalize readChildRaw m addr _ = buf
  by_cases hshort : buf.length < getdentsHeaderSize
  · rw [if_pos hshort, if_pos hshort]
    exact (embeds_nil (clean_hex0x _) _).clean_cut_iff
  rw [if_neg hshort, if_neg hshort, List.append_assoc,
    cut_append (fun c hc => hopen.1.ne_zero hc) (by rw [hopen.2]; decide), clean_append, hopen.2]
  have htail := getdentsTail_clean (getdentsWalk buf 0 0) buf.length
  have hcut : cut (strArgBufLen - 1)
      (direntsText 0 (getdentsWalk buf 0 0).entries ++ getdentsTail (getdentsWalk buf 0 0) buf.length) =
      (direntsText 0 (getdentsWalk buf 0 0).entries ++
        getdentsTail (getdentsWalk buf 0 0) buf.length).take (strArgBufLen - 2) := by
    refine cstr_of_forall_ne_zero fun c hc => ?_
    rcases List.mem_append.mp (List.mem_of_mem_take hc) with hc | hc
    · exact direntsText_ne_zero _ _ c hc
    · exact htail.ne_zero hc
  rw [hcut, direntsText_clean_iff _ _ _ htail]
  exact and_iff_right hopen.1

end MiniStrace
