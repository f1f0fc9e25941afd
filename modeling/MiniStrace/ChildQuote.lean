/-
  ChildQuote.lean --- what a quoted dump of tracee memory says.

  READING A DUMP BACK.  `unescape` undoes the escaping and `body` finds the closing quote.
  The escaping never produces a bare quote or half an escape, so the text of a dump
  determines the bytes it shows.

  HOW MANY BYTES ARE SHOWN.  The loop goes on while six cells are left, so the number of
  bytes is decided by the widths of the escaped prefixes (`lt_fits_iff`).  The truncation
  marker needs three more cells behind the closing quote, and is dropped without them.
-/
import MiniStrace.ChildText

set_option autoImplicit false

namespace MiniStrace

open CLib OutBuf

/-! ## The outcomes of a reader -/

/-- What `read_child_string` and `read_child_buffer` decide to print. -/
inductive Dump where
  | null
  | address
  | quoted (bytes : Text) (more : Bool)
  deriving DecidableEq

/-- The printing that goes with a decision. -/
def Dump.run (addr : Word) (out : OutBuf) : Dump → OutBuf
  | .null => out.snprintf (lit "NULL")
  | .address => out.snprintf (hex0x addr.toNat)
  | .quoted bytes more => quoteBytes out bytes more

/-- The bytes `read_child_string` gets hold of. -/
def stringRaw (host : Host) (m : Mem) (addr : Word) : Text :=
  stringLoop m addr (readCap host) (readCap host) 0

/-- The decision of `read_child_string`. -/
def stringDump (host : Host) (m : Mem) (addr : Word) : Dump :=
  if addr = 0 then .null
  else
    let raw := stringRaw host m addr
    let len := (cstr raw).length
    if raw.length = 0 then .address
    else if len > host.maxStrLen then .quoted (raw.take host.maxStrLen) true
    else .quoted (raw.take len) (len == raw.length)

/-- The decision of `read_child_buffer`. -/
def bufferDump (host : Host) (m : Mem) (addr : Word) (len : Nat) : Dump :=
  if addr = 0 then .null
  else
    let raw := readChildRaw m addr (bufferWant host len)
    if raw.length = 0 then .address else .quoted raw (len > raw.length)

theorem readChildString_eq_run (host : Host) (m : Mem) (addr : Word) (out : OutBuf) :
    readChildString host m addr out = (stringDump host m addr).run addr out := by
  unfold readChildString stringDump stringRaw
  dsimp only
  split_ifs <;> rfl

theorem readChildBuffer_eq_run (host : Host) (m : Mem) (addr : Word) (len : Nat) (out : OutBuf) :
    readChildBuffer host m addr len out = (bufferDump host m addr len).run addr out := by
  unfold readChildBuffer bufferDump readChildRaw
  dsimp only
  split_ifs <;> rfl

section Array

variable {n : Nat} (hn : n < 2 ^ 64) (addr : Word) (init : Nat → Byte)

include hn

theorem Dump.str_quoted (hsize : 2 < n) (bytes : Text) (more : Bool) :
    ((Dump.quoted bytes more).run addr (new n init)).str = quoteText n bytes more :=
  (quoteBytes_spec (filled_new hn init) hsize bytes more).1

variable (hsize : 1 < n)

include hsize

/-- One print starts with the first character of its text. -/
theorem head_snprintf {c : Byte} {t : Text} (hc : c ≠ 0) :
    ((new n init).snprintf (c :: t)).str.head? = some c := by
  have hcut := (prints_snprintf (c :: t)).str_eq_cut hn (by omega) (by simp) init
  obtain ⟨j, hj⟩ : ∃ j, n - 1 = j + 1 := ⟨n - 2, by omega⟩
  rw [hcut, cut, hj, List.take_succ_cons, cstr, List.takeWhile_cons_of_pos (by simpa using hc),
    List.head?_cons]

theorem head_null : ((new n init).snprintf (lit "NULL")).str.head? = some 0x4e := by
  rw [lit_null]
  exact head_snprintf hn init hsize (by decide)

theorem head_hex0x : ((new n init).snprintf (hex0x addr.toNat)).str.head? = some 0x30 := by
  rw [hex0x, lit_hexLead, List.cons_append]
  exact head_snprintf hn init hsize (by decide)

/-- Only a quoted dump starts with a quote. -/
theorem Dump.quoted_of_head {d : Dump} (h : (d.run addr (new n init)).str.head? = some 0x22) :
    ∃ bytes more, d = .quoted bytes more := by
  cases d with
  | null =>
      rw [Dump.run, head_null hn init hsize] at h
      exact absurd h (by decide)
  | address =>
      rw [Dump.run, head_hex0x hn addr init hsize] at h
      exact absurd h (by decide)
  | quoted bytes more => exact ⟨bytes, more, rfl⟩

end Array

/-! ## Undoing the escaping -/

/-- The unescaping function; `none` for a text with half an escape. -/
def unescape : Text → Option Text
  | [] => some []
  | c :: cs =>
      if c ≠ 0x5c then (unescape cs).map (c :: ·)
      else match cs with
        | [] => none
        | d :: ds =>
            if d = 0x22 ∨ d = 0x5c then (unescape ds).map (d :: ·)
            else if d = 0x6e then (unescape ds).map (0x0a :: ·)
            else if d = 0x78 then
              match ds with
              | h :: l :: es => (unescape es).map (UInt8.ofNat (16 * digitVal h + digitVal l) :: ·)
              | _ => none
            else none

/-- Every quote of the text is escaped, and no escape is left open at its end. -/
def noRawQuote : Text → Bool
  | [] => true
  | c :: cs =>
      if c = 0x22 then false
      else if c = 0x5c then
        match cs with
        | [] => false
        | _ :: ds => noRawQuote ds
      else noRawQuote cs

/-- The text up to the first quote that is not escaped. -/
def body : Text → Text
  | [] => []
  | c :: cs =>
      if c = 0x22 then []
      else if c = 0x5c then
        match cs with
        | [] => [c]
        | d :: ds => c :: d :: body ds
      else c :: body cs

section Steps

variable {c : Byte} {cs : Text}

theorem unescape_plain (h : c ≠ 0x5c) : unescape (c :: cs) = (unescape cs).map (c :: ·) := by
  conv_lhs => unfold unescape
  simp [h]

theorem unescape_self (h : c = 0x22 ∨ c = 0x5c) :
    unescape (0x5c :: c :: cs) = (unescape cs).map (c :: ·) := by
  conv_lhs => unfold unescape
  simp [h]

theorem unescape_newline : unescape (0x5c :: 0x6e :: cs) = (unescape cs).map (0x0a :: ·) := by
  conv_lhs => unfold unescape
  simp

theorem unescape_hex (h l : Byte) : unescape (0x5c :: 0x78 :: h :: l :: cs) =
    (unescape cs).map (UInt8.ofNat (16 * digitVal h + digitVal l) :: ·) := by
  conv_lhs => unfold unescape
  simp

theorem noRawQuote_plain (hq : c ≠ 0x22) (h : c ≠ 0x5c) : noRawQuote (c :: cs) = noRawQuote cs := by
  conv_lhs => unfold noRawQuote
  simp [hq, h]

theorem noRawQuote_pair : noRawQuote (0x5c :: c :: cs) = noRawQuote cs := by
  conv_lhs => unfold noRawQuote
  simp

theorem body_quote : body (0x22 :: cs) = [] := by
  unfold body
  simp

theorem body_plain (hq : c ≠ 0x22) (h : c ≠ 0x5c) : body (c :: cs) = c :: body cs := by
  conv_lhs => unfold body
  simp [hq, h]

theorem body_pair : body (0x5c :: c :: cs) = 0x5c :: c :: body cs := by
  conv_lhs => unfold body
  simp

end Steps

theorem body_append_quote {E : Text} (h : noRawQuote E = true) (rest : Text) :
    body (E ++ 0x22 :: rest) = E := by
  fun_induction noRawQuote E with
  | case1 => exact body_quote
  | case2 cs => exact absurd h (by simp)
  | case3 hq => exact absurd h (by simp)
  | case4 hq d ds ih =>
      rw [List.cons_append, List.cons_append, body_pair, ih h]
  | case5 c cs hq hesc ih => rw [List.cons_append, body_plain hq hesc, ih h]

/-- The escaped form of a string of bytes. -/
def escaped (bytes : Text) : Text := bytes.flatMap escape

theorem lit_backslashX : lit "\\x" = [0x5c, 0x78] := by with_unfolding_all decide

theorem unescape_escape_append (c : Byte) (t : Text) :
    unescape (escape c ++ t) = (unescape t).map (c :: ·) := by
  unfold escape
  split_ifs with h₁ h₂ h₃
  · exact unescape_self h₁
  · rw [h₂]
    exact unescape_newline
  · exact unescape_plain fun h => h₁ (Or.inr h)
  · have hdigits : UInt8.ofNat (16 * digitVal (digitByte (c.toNat / 16)) +
        digitVal (digitByte (c.toNat % 16))) = c := by
      have hlt := c.toNat_lt
      rw [digitVal_digitByte (by omega), digitVal_digitByte (by omega), Nat.div_add_mod]
      exact UInt8.ofNat_toNat
    rw [lit_backslashX, hex02]
    have hx := @unescape_hex t (digitByte (c.toNat / 16)) (digitByte (c.toNat % 16))
    rwa [hdigits] at hx

theorem noRawQuote_escape_append (c : Byte) (t : Text) :
    noRawQuote (escape c ++ t) = noRawQuote t := by
  unfold escape
  split_ifs with h₁ h₂ h₃
  · exact noRawQuote_pair
  · exact noRawQuote_pair
  · exact noRawQuote_plain (fun h => h₁ (Or.inl h)) fun h => h₁ (Or.inr h)
  · have hdigit : ∀ d, d < 16 → digitByte d ≠ 0x22 ∧ digitByte d ≠ 0x5c := by decide
    have hlt := c.toNat_lt
    obtain ⟨hq, hb⟩ := hdigit (c.toNat / 16) (by omega)
    obtain ⟨hq', hb'⟩ := hdigit (c.toNat % 16) (by omega)
    rw [lit_backslashX, hex02]
    change noRawQuote (0x5c :: 0x78 :: _ :: _ :: t) = _
    rw [noRawQuote_pair, noRawQuote_plain hq hb, noRawQuote_plain hq' hb']

theorem escape_printable (c : Byte) : ∀ b ∈ escape c, 0x20 ≤ b ∧ b ≤ 0x7e := by
  unfold escape
  split_ifs with h₁ h₂ h₃
  · rcases h₁ with rfl | rfl <;> simp
  · simp
  · intro b hb
    rw [List.mem_singleton.mp hb]
    refine ⟨h₃.1, ?_⟩
    have hlt := UInt8.lt_iff_toNat_lt.mp h₃.2
    have e₁ : (0x7f : UInt8).toNat = 0x7f := rfl
    have e₂ : (0x7e : UInt8).toNat = 0x7e := rfl
    rw [UInt8.le_iff_toNat_le]
    omega
  · have hdigit : ∀ d, d < 16 → 0x20 ≤ digitByte d ∧ digitByte d ≤ 0x7e := by decide
    have hlt := c.toNat_lt
    intro b hb
    rw [lit_backslashX, hex02] at hb
    simp only [List.cons_append, List.nil_append, List.mem_cons, List.not_mem_nil, or_false] at hb
    rcases hb with rfl | rfl | rfl | rfl
    · decide
    · decide
    · exact hdigit _ (by omega)
    · exact hdigit _ (by omega)

theorem unescape_escaped (bytes : Text) : unescape (escaped bytes) = some bytes := by
  induction bytes with
  | nil => rfl
  | cons c cs ih =>
      rw [escaped, List.flatMap_cons, unescape_escape_append]
      change (unescape (escaped cs)).map (c :: ·) = _
      rw [ih, Option.map_some]

theorem noRawQuote_escaped (bytes : Text) : noRawQuote (escaped bytes) = true := by
  induction bytes with
  | nil => rfl
  | cons c cs ih =>
      rw [escaped, List.flatMap_cons, noRawQuote_escape_append]
      exact ih

/-! ## How many bytes are shown -/

/-- The number of bytes the escaping loop gets through. -/
def fits (size : Nat) : Nat → Text → Nat
  | _, [] => 0
  | oi, c :: cs => if oi + 5 < size then fits size (oi + (escape c).length) cs + 1 else 0

theorem fits_le (size oi : Nat) (bytes : Text) : fits size oi bytes ≤ bytes.length := by
  induction bytes generalizing oi with
  | nil => exact Nat.le_refl 0
  | cons c cs ih =>
      rw [fits, List.length_cons]
      split
      · exact Nat.succ_le_succ (ih _)
      · exact Nat.zero_le _

theorem escapeText_eq (size oi : Nat) (bytes : Text) :
    escapeText size oi bytes = escaped (bytes.take (fits size oi bytes)) := by
  induction bytes generalizing oi with
  | nil => rfl
  | cons c cs ih =>
      rw [escapeText, fits]
      split
      · rw [List.take_succ_cons, escaped, List.flatMap_cons, ih]
        rfl
      · rfl

/-- A byte is shown exactly when the escaped bytes before it leave six cells. -/
theorem lt_fits_iff (size oi : Nat) (bytes : Text) {j : Nat} (hj : j < bytes.length) :
    j < fits size oi bytes ↔ oi + (escaped (bytes.take j)).length + 5 < size := by
  induction bytes generalizing oi j with
  | nil => exact absurd hj (Nat.not_lt_zero j)
  | cons c cs ih =>
      rw [fits]
      by_cases hroom : oi + 5 < size
      · rw [if_pos hroom]
        cases j with
        | zero => simpa [escaped] using hroom
        | succ j =>
            have hstep := ih (oi + (escape c).length) (Nat.lt_of_succ_lt_succ hj)
            rw [Nat.add_lt_add_iff_right, hstep, List.take_succ_cons, escaped, escaped,
              List.flatMap_cons, List.length_append, Nat.add_assoc oi]
      · rw [if_neg hroom]
        constructor
        · intro h
          exact absurd h (Nat.not_lt_zero _)
        · intro h
          omega

/-- What a reader of the text finds: the bytes shown and whether the marker is there. -/
def readQuoted (t : Text) : Option (Text × Bool) :=
  let b := body (t.drop 1)
  (unescape b).map fun bytes => (bytes, t.drop (b.length + 2) == lit "...")

theorem readQuoted_form {E : Text} (h : noRawQuote E = true) (mark : Text) :
    readQuoted (lit "\"" ++ E ++ lit "\"" ++ mark) =
      (unescape E).map fun bytes => (bytes, mark == lit "...") := by
  have htext : lit "\"" ++ E ++ lit "\"" ++ mark = 0x22 :: (E ++ 0x22 :: mark) := by
    rw [lit_quote]
    simp
  have hdrop : (0x22 :: (E ++ 0x22 :: mark)).drop (E.length + 2) = mark := by
    rw [List.drop_succ_cons, List.drop_append]
    simp
  rw [htext, readQuoted, List.drop_one, List.tail_cons, body_append_quote h, hdrop]

/-- The text of a dump, with the bytes that are shown. -/
theorem quoteText_eq (size : Nat) (bytes : Text) (more : Bool) :
    quoteText size bytes more =
      lit "\"" ++ escaped (bytes.take (fits size 1 bytes)) ++ lit "\"" ++
        if more ∧ (escaped (bytes.take (fits size 1 bytes))).length + 5 < size then lit "..."
        else [] := by
  have hq : (lit "\"").length = 1 := by rw [lit_quote]; rfl
  have hlen : ∀ E : Text, (lit "\"" ++ E ++ lit "\"").length + 3 = E.length + 5 := by
    intro E
    rw [List.length_append, List.length_append, hq]
    omega
  unfold quoteText
  dsimp only
  rw [escapeText_eq, hlen]
  split
  · rfl
  · rw [List.append_nil]

theorem readQuoted_quoteText (size : Nat) (bytes : Text) (more : Bool) :
    readQuoted (quoteText size bytes more) =
      some (bytes.take (fits size 1 bytes),
        decide (more ∧ (escaped (bytes.take (fits size 1 bytes))).length + 5 < size)) := by
  have hdots : ([] == lit "...") = false := by with_unfolding_all decide
  rw [quoteText_eq, readQuoted_form (noRawQuote_escaped _), unescape_escaped, Option.map_some]
  split
  · rename_i h
    rw [beq_self_eq_true, decide_eq_true h]
  · rename_i h
    rw [hdots, decide_eq_false h]

/-! ## Dumps determine the bytes they show -/

/-- The text is a quoted dump of the first `k` bytes at `addr`. -/
def QuotedDump (str : Text) (m : Mem) (addr : Word) (k : Nat) : Prop :=
  ∃ E mark, str = lit "\"" ++ E ++ lit "\"" ++ mark ∧ (mark = [] ∨ mark = lit "...") ∧
    noRawQuote E = true ∧ (∀ b ∈ E, 0x20 ≤ b ∧ b ≤ 0x7e) ∧ unescape E = some (m.bytes addr k)

theorem quotedDump_quoteText (size n : Nat) (m : Mem) (addr : Word) (more : Bool) :
    ∃ k ≤ n, QuotedDump (quoteText size (m.bytes addr n) more) m addr k := by
  have hle := fits_le size 1 (m.bytes addr n)
  rw [Mem.length_bytes] at hle
  refine ⟨fits size 1 (m.bytes addr n), hle, _, _, quoteText_eq size _ more, ?_,
    noRawQuote_escaped _, ?_, ?_⟩
  · split
    · exact Or.inr rfl
    · exact Or.inl rfl
  · intro b hb
    obtain ⟨c, -, hc⟩ := List.mem_flatMap.mp hb
    exact escape_printable c b hc
  · rw [unescape_escaped, m.take_bytes addr hle]

/-- A text is a dump of one string of bytes only. -/
theorem QuotedDump.bytes_eq {str : Text} {m m' : Mem} {addr addr' : Word} {k k' : Nat}
    (h : QuotedDump str m addr k) (h' : QuotedDump str m' addr' k') :
    m.bytes addr k = m'.bytes addr' k' := by
  obtain ⟨E, mark, hstr, -, hraw, -, hun⟩ := h
  obtain ⟨E', mark', hstr', -, hraw', -, hun'⟩ := h'
  have hread := readQuoted_form hraw mark
  have hread' := readQuoted_form hraw' mark'
  rw [← hstr, hun, Option.map_some] at hread
  rw [← hstr', hun', Option.map_some, hread] at hread'
  exact congrArg Prod.fst (Option.some.inj hread')

/-- The bytes of a string dump: as many as were read before a NUL, and at most
`max_str_len`. -/
theorem stringDump_quoted {host : Host} {m : Mem} {addr : Word} {bytes : Text} {more : Bool}
    (h : stringDump host m addr = .quoted bytes more) :
    ∃ n ≤ host.maxStrLen, bytes = m.bytes addr n ∧ ∀ i, i < n → m.byteAt addr i ≠ 0 := by
  obtain ⟨got, hraw, -⟩ := stringLoop_eq m addr (readCap host) (readCap host) 0
  rw [show addr + BitVec.ofNat 64 0 = addr from BitVec.add_zero addr] at hraw
  have hprefix : (cstr (m.bytes addr got)).length ≤ got := by
    have := (List.takeWhile_prefix (fun b : Byte => decide (b ≠ 0)) (l := m.bytes addr got)).length_le
    rwa [Mem.length_bytes] at this
  have hz : ∀ i, i < (cstr (m.bytes addr got)).length → m.byteAt addr i ≠ 0 := by
    intro i hi
    have htake := List.prefix_iff_eq_take.mp
      (List.takeWhile_prefix (fun b : Byte => decide (b ≠ 0)) (l := m.bytes addr got))
    change cstr (m.bytes addr got) = (m.bytes addr got).take (cstr (m.bytes addr got)).length at htake
    rw [m.take_bytes addr hprefix] at htake
    refine cstr_ne_zero (t := m.bytes addr got) ?_
    rw [htake, Mem.bytes]
    exact List.mem_map_of_mem (List.mem_range.mpr hi)
  unfold stringDump stringRaw at h
  dsimp only at h
  rw [hraw] at h
  split_ifs at h with h₁ h₂ h₃
  · refine ⟨host.maxStrLen, le_refl _, ?_, fun i hi => hz i (by omega)⟩
    rw [← (Dump.quoted.inj h).1, m.take_bytes addr (by omega)]
  · refine ⟨_, by omega, ?_, hz⟩
    rw [← (Dump.quoted.inj h).1, m.take_bytes addr hprefix]

theorem bufferWant_le (host : Host) (len : Nat) : bufferWant host len ≤ min host.maxStrLen len := by
  unfold bufferWant
  dsimp only
  split_ifs <;> omega

theorem bufferDump_quoted {host : Host} {m : Mem} {addr : Word} {len : Nat} {bytes : Text}
    {more : Bool} (h : bufferDump host m addr len = .quoted bytes more) :
    ∃ n ≤ min host.maxStrLen len, bytes = m.bytes addr n := by
  unfold bufferDump at h
  dsimp only at h
  split_ifs at h
  refine ⟨_, le_trans (length_readChildRaw_le m addr _) (bufferWant_le host len), ?_⟩
  rw [← (Dump.quoted.inj h).1]
  exact readChildRaw_eq m addr _

/-- `read_child_string` and `read_child_buffer`: a quoted output unescapes to the first
bytes at the address, and two memories with the same output have the same bytes shown. -/
theorem dumps_read_back (host : Host) (outSize : Word) (hsize : 16 ≤ outSize.toNat)
    (init : Nat → Byte) :
    (∀ (m : Mem) (addr : Word),
      (readChildString host m addr (new outSize.toNat init)).str.head? = some 0x22 →
      ∃ k ≤ host.maxStrLen,
        QuotedDump (readChildString host m addr (new outSize.toNat init)).str m addr k ∧
        ∀ i, i < k → m.byteAt addr i ≠ 0) ∧
    (∀ (m : Mem) (addr : Word) (len : Nat),
      (readChildBuffer host m addr len (new outSize.toNat init)).str.head? = some 0x22 →
      ∃ k ≤ min host.maxStrLen len,
        QuotedDump (readChildBuffer host m addr len (new outSize.toNat init)).str m addr k) ∧
    (∀ (str : Text) (m m' : Mem) (addr addr' : Word) (k k' : Nat), QuotedDump str m addr k →
      QuotedDump str m' addr' k' → m.bytes addr k = m'.bytes addr' k') := by
  have hn := outSize.isLt
  refine ⟨fun m addr hq => ?_, fun m addr len hq => ?_, fun _ _ _ _ _ _ _ h h' => h.bytes_eq h'⟩
  · rw [readChildString_eq_run] at hq ⊢
    obtain ⟨bytes, more, hd⟩ := Dump.quoted_of_head hn addr init (by omega) hq
    obtain ⟨n, hle, hbytes, hz⟩ := stringDump_quoted hd
    rw [hd, Dump.str_quoted hn addr init (by omega), hbytes]
    obtain ⟨k, hk, hdump⟩ := quotedDump_quoteText outSize.toNat n m addr more
    exact ⟨k, le_trans hk hle, hdump, fun i hi => hz i (by omega)⟩
  · rw [readChildBuffer_eq_run] at hq ⊢
    obtain ⟨bytes, more, hd⟩ := Dump.quoted_of_head hn addr init (by omega) hq
    obtain ⟨n, hle, hbytes⟩ := bufferDump_quoted hd
    rw [hd, Dump.str_quoted hn addr init (by omega), hbytes]
    obtain ⟨k, hk, hdump⟩ := quotedDump_quoteText outSize.toNat n m addr more
    exact ⟨k, le_trans hk hle, hdump⟩

/-- Three letters in the smallest array. -/
theorem dumps_read_back_three :
    16 ≤ (16 : Word).toNat ∧ ∃ k ≤ min (default : Host).maxStrLen 3,
      QuotedDump (readChildBuffer default (fun _ => some 0x61) 0x1000 3
        (new (16 : Word).toNat fun _ => 0)).str (fun _ => some 0x61) 0x1000 k :=
  ⟨by decide, (dumps_read_back default 16 (by decide) fun _ => 0).2.1 (fun _ => some 0x61) 0x1000 3
    (by with_unfolding_all decide)⟩

/-! ## Strings in memory -/

/-- A string of `len` characters and its NUL. -/
structure StringAt (m : Mem) (addr : Word) (len : Nat) : Prop where
  chars : ∀ i, i < len → ∃ b, b ≠ 0 ∧ m (addr + BitVec.ofNat 64 i) = some b
  nul : m (addr + BitVec.ofNat 64 len) = some 0

namespace StringAt

variable {m : Mem} {addr : Word} {len : Nat}

theorem byteAt_ne_zero (h : StringAt m addr len) {i : Nat} (hi : i < len) :
    m.byteAt addr i ≠ 0 := by
  obtain ⟨b, hb, hm⟩ := h.chars i hi
  rw [Mem.byteAt, hm]
  exact hb

theorem byteAt_len (h : StringAt m addr len) : m.byteAt addr len = 0 := by
  rw [Mem.byteAt, h.nul]
  rfl

/-- Of the bytes read, those before the NUL. -/
theorem cstr_bytes (h : StringAt m addr len) (got : Nat) :
    cstr (m.bytes addr got) = m.bytes addr (min len got) := by
  have hchars : ∀ n, n ≤ len → cstr (m.bytes addr n) = m.bytes addr n := by
    intro n hn
    refine cstr_of_forall_ne_zero fun b hb => ?_
    obtain ⟨i, hi, rfl⟩ := List.mem_map.mp hb
    exact h.byteAt_ne_zero (lt_of_lt_of_le (List.mem_range.mp hi) hn)
  by_cases hlt : len < got
  · obtain ⟨j, rfl⟩ : ∃ j, got = len + (1 + j) := ⟨got - len - 1, by omega⟩
    have hhead : m.bytes (addr + BitVec.ofNat 64 len) 1 = [0] := by
      rw [Mem.bytes, List.range_one, List.map_singleton, Mem.byteAt_add, Nat.add_zero,
        h.byteAt_len]
    rw [Mem.bytes_add, Mem.bytes_add _ _ 1 j, hhead, List.singleton_append, cstr_append_zero,
      hchars len le_rfl, min_eq_left (by omega)]
  · rw [min_eq_right (by omega), hchars got (by omega)]

end StringAt

theorem stringRaw_eq (host : Host) (m : Mem) (addr : Word) :
    stringRaw host m addr = m.bytes addr (stringRaw host m addr).length := by
  obtain ⟨got, hraw, -⟩ := stringLoop_eq m addr (readCap host) (readCap host) 0
  rw [show addr + BitVec.ofNat 64 0 = addr from BitVec.add_zero addr] at hraw
  rw [stringRaw, hraw, Mem.length_bytes]

/-- The dump of a string, by the number of bytes that were read. -/
theorem stringDump_of_string {host : Host} {m : Mem} {addr : Word} {len got : Nat}
    (h : StringAt m addr len) (haddr : addr ≠ 0) (hgot : (stringRaw host m addr).length = got)
    (hpos : got ≠ 0) :
    stringDump host m addr = .quoted (m.bytes addr (min (min len got) host.maxStrLen))
      (decide (host.maxStrLen < min len got ∨ min len got = got)) := by
  have hraw := stringRaw_eq host m addr
  rw [hgot] at hraw
  unfold stringDump
  dsimp only
  rw [if_neg haddr, hraw, Mem.length_bytes, if_neg hpos, h.cstr_bytes, Mem.length_bytes]
  split
  · rename_i hlong
    rw [m.take_bytes addr (by omega), min_eq_right (by omega), decide_eq_true (Or.inl hlong)]
  · rename_i hshort
    have hor : (host.maxStrLen < min len got ∨ min len got = got) ↔ min len got = got :=
      or_iff_right hshort
    rw [m.take_bytes addr (min_le_right _ _),
      min_eq_left (show min len got ≤ host.maxStrLen by omega), beq_eq_decide]
    exact congrArg _ (decide_eq_decide.mpr hor).symm

/-- The dump of a string in mapped memory. -/
theorem stringDump_mapped {host : Host} {m : Mem} (hm : ∀ a, (m a).isSome) {addr : Word}
    {len : Nat} (h : StringAt m addr len) (haddr : addr ≠ 0)
    (hmax : 1 ≤ host.maxStrLen ∧ host.maxStrLen ≤ 1024) :
    stringDump host m addr = .quoted (m.bytes addr (min len host.maxStrLen))
      (decide (host.maxStrLen < len ∨ (len = host.maxStrLen ∧ host.maxStrLen % 8 = 0))) := by
  have hcap : readCap host = (host.maxStrLen + 7) / 8 * 8 := by
    have hsize : strArgBufLen = 1024 := rfl
    unfold readCap
    dsimp only
    split <;> omega
  have hle := length_stringLoop_le m addr (readCap host)
  have hreach : ∀ k, k < readCap host → k ≤ len → k < (stringRaw host m addr).length := by
    intro k hk hlen
    have := lt_length_stringLoop (k := k) (fun _ _ _ _ _ => hm _) (readCap_mod host) hk
      (fun i hi => h.byteAt_ne_zero (lt_of_lt_of_le hi hlen)) (readCap host) 0 rfl (Nat.zero_le k)
      (by omega)
    rwa [Nat.zero_add] at this
  change (stringRaw host m addr).length ≤ readCap host at hle
  generalize hgot : (stringRaw host m addr).length = got at hle hreach
  by_cases hin : len < readCap host
  · -- the NUL is among the bytes read
    have hlt := hreach len hin le_rfl
    rw [stringDump_of_string h haddr hgot (by omega), min_eq_left hlt.le]
    congr 1
    refine decide_eq_decide.mpr ⟨fun hor => ?_, fun hor => ?_⟩ <;> omega
  · have hlt := hreach (readCap host - 1) (by omega) (by omega)
    have hall : got = readCap host := by omega
    rw [stringDump_of_string h haddr hgot (by omega), min_eq_right (a := len) (by omega)]
    congr 1
    · congr 1
      omega
    · refine decide_eq_decide.mpr ⟨fun hor => ?_, fun hor => ?_⟩ <;> omega

/-- The dump of a buffer in mapped memory. -/
theorem bufferDump_mapped {host : Host} {m : Mem} (hm : ∀ a, (m a).isSome) {addr : Word}
    (haddr : addr ≠ 0) (hmax : 1 ≤ host.maxStrLen ∧ host.maxStrLen ≤ 1024) {len : Nat}
    (hlen : 0 < len) :
    bufferDump host m addr len = .quoted (m.bytes addr (min len host.maxStrLen))
      (decide (host.maxStrLen < len)) := by
  have hwant : bufferWant host len = min len host.maxStrLen := by
    have hsize : strArgBufLen = 1024 := rfl
    unfold bufferWant
    dsimp only
    split_ifs <;> omega
  have hraw : readChildRaw m addr (min len host.maxStrLen) =
      m.bytes addr (min len host.maxStrLen) := readChildRaw_whole fun _ _ => hm _
  unfold bufferDump
  dsimp only
  rw [if_neg haddr, hwant, hraw, Mem.length_bytes, if_neg (by omega)]
  congr 1
  refine decide_eq_decide.mpr ⟨fun hor => ?_, fun hor => ?_⟩ <;> omega

/-! ## The truncation marker -/

/-- The width of the escaped form of the first `n` bytes. -/
def dumpWidth (m : Mem) (addr : Word) (n : Nat) : Nat := (escaped (m.bytes addr n)).length

theorem dumpWidth_lt (m : Mem) (addr : Word) {j n : Nat} (h : j < n) :
    dumpWidth m addr j < dumpWidth m addr n := by
  obtain ⟨d, rfl⟩ : ∃ d, n = j + (1 + d) := ⟨n - j - 1, by omega⟩
  have hone : m.bytes (addr + BitVec.ofNat 64 j) 1 = [m.byteAt addr j] := by
    rw [Mem.bytes, List.range_one, List.map_singleton, Mem.byteAt_add, Nat.add_zero]
  have hpos := (length_escape (m.byteAt addr j)).1
  unfold dumpWidth escaped
  rw [Mem.bytes_add, Mem.bytes_add _ _ 1 d, hone, List.flatMap_append, List.flatMap_append,
    List.length_append, List.length_append, List.flatMap_singleton]
  omega

/-- The bytes of memory a dump shows. -/
def shownBytes (m : Mem) (addr : Word) (n : Nat) : Nat := fits strArgBufLen 1 (m.bytes addr n)

/-- All `n` bytes are shown. -/
def AllFit (m : Mem) (addr : Word) (n : Nat) : Prop := n = 0 ∨ dumpWidth m addr (n - 1) < 1018

/-- The marker has room behind a dump of `n` bytes. -/
def MarkFits (m : Mem) (addr : Word) (n : Nat) : Prop :=
  dumpWidth m addr n < 1018 ∨ ∃ j ≤ n, dumpWidth m addr j = 1018

section Shown

variable (m : Mem) (addr : Word) (n : Nat)

theorem shownBytes_le : shownBytes m addr n ≤ n := by
  have := fits_le strArgBufLen 1 (m.bytes addr n)
  rwa [Mem.length_bytes] at this

theorem lt_shownBytes_iff {j : Nat} (hj : j < n) :
    j < shownBytes m addr n ↔ dumpWidth m addr j < 1018 := by
  have hfits := lt_fits_iff strArgBufLen 1 (m.bytes addr n) (j := j)
    (by rwa [Mem.length_bytes])
  rw [m.take_bytes addr hj.le] at hfits
  have hsize : strArgBufLen = 1024 := rfl
  rw [shownBytes, hfits, dumpWidth]
  omega

theorem shownBytes_eq_iff : shownBytes m addr n = n ↔ AllFit m addr n := by
  have hle := shownBytes_le m addr n
  unfold AllFit
  cases n with
  | zero => simpa using hle
  | succ n =>
      have hlast := lt_shownBytes_iff m addr (n + 1) (Nat.lt_succ_self n)
      rw [Nat.add_sub_cancel, ← hlast]
      omega

/-- A loop that stops early has filled the array. -/
theorem width_of_cut (h : shownBytes m addr n < n) :
    1018 ≤ dumpWidth m addr (shownBytes m addr n) := by
  have := lt_shownBytes_iff m addr n h
  omega

theorem width_eq_of_cut (h : shownBytes m addr n < n) :
    dumpWidth m addr (shownBytes m addr n) < 1019 ↔ ∃ j < n, dumpWidth m addr j = 1018 := by
  have hcut := width_of_cut m addr n h
  constructor
  · exact fun hlt => ⟨_, h, by omega⟩
  · rintro ⟨j, hj, hw⟩
    have hge : shownBytes m addr n ≤ j := by
      by_contra hlt
      have := (lt_shownBytes_iff m addr n hj).mp (by omega)
      omega
    rcases Nat.lt_or_eq_of_le hge with hlt | heq
    · have := dumpWidth_lt m addr hlt
      omega
    · rw [heq, hw]
      decide

theorem markFits_iff : dumpWidth m addr (shownBytes m addr n) < 1019 ↔ MarkFits m addr n := by
  have hle := shownBytes_le m addr n
  unfold MarkFits
  rcases Nat.lt_or_eq_of_le hle with hlt | heq
  · rw [width_eq_of_cut m addr n hlt]
    have hcut := width_of_cut m addr n hlt
    have hbig := dumpWidth_lt m addr hlt
    constructor
    · rintro ⟨j, hj, hw⟩
      exact Or.inr ⟨j, hj.le, hw⟩
    · rintro (hw | ⟨j, hj, hw⟩)
      · omega
      · refine ⟨j, ?_, hw⟩
        rcases Nat.lt_or_eq_of_le hj with hj | rfl
        · exact hj
        · omega
  · rw [heq]
    constructor
    · intro hw
      by_cases heq' : dumpWidth m addr n = 1018
      · exact Or.inr ⟨n, le_rfl, heq'⟩
      · exact Or.inl (by omega)
    · rintro (hw | ⟨j, hj, hw⟩)
      · omega
      · rcases Nat.lt_or_eq_of_le hj with hj | rfl
        · have := (lt_shownBytes_iff m addr n hj).mp (by omega)
          omega
        · omega

end Shown

/-- The text reads as a dump whose marker says whether it shows fewer than `total` bytes. -/
def MarkTrue (str : Text) (total : Nat) : Prop :=
  ∃ bytes marked, readQuoted str = some (bytes, marked) ∧ (marked = true ↔ bytes.length < total)

theorem markTrue_iff (m : Mem) (addr : Word) (n total : Nat) (more : Bool) :
    MarkTrue (quoteText strArgBufLen (m.bytes addr n) more) total ↔
      ((more = true ∧ dumpWidth m addr (shownBytes m addr n) < 1019) ↔
        shownBytes m addr n < total) := by
  have hread := readQuoted_quoteText strArgBufLen (m.bytes addr n) more
  have hsize : strArgBufLen = 1024 := rfl
  rw [show fits strArgBufLen 1 (m.bytes addr n) = shownBytes m addr n from rfl,
    m.take_bytes addr (shownBytes_le m addr n)] at hread
  have hroom : (escaped (m.bytes addr (shownBytes m addr n))).length + 5 < strArgBufLen ↔
      dumpWidth m addr (shownBytes m addr n) < 1019 := by
    rw [dumpWidth]
    omega
  simp only [hroom] at hread
  unfold MarkTrue
  constructor
  · rintro ⟨bytes, marked, h, hiff⟩
    rw [hread, Option.some.injEq, Prod.mk.injEq] at h
    obtain ⟨rfl, rfl⟩ := h
    rwa [decide_eq_true_eq, Mem.length_bytes] at hiff
  · intro hiff
    refine ⟨_, _, hread, ?_⟩
    rwa [decide_eq_true_eq, Mem.length_bytes]

/-- When the marker of a string of `len` characters is right. -/
def StringMarkRight (host : Host) (m : Mem) (addr : Word) (len : Nat) : Prop :=
  if host.maxStrLen < len then MarkFits m addr host.maxStrLen
  else if len = host.maxStrLen ∧ host.maxStrLen % 8 = 0 then
    (AllFit m addr len ∧ 1018 < dumpWidth m addr len) ∨ ∃ j < len, dumpWidth m addr j = 1018
  else AllFit m addr len

/-- When the marker of a buffer of `len` bytes is right. -/
def BufferMarkRight (host : Host) (m : Mem) (addr : Word) (len : Nat) : Prop :=
  if host.maxStrLen < len then MarkFits m addr host.maxStrLen else AllFit m addr len

/-- Beyond the cap, the marker is always asked for. -/
theorem markTrue_long (m : Mem) (addr : Word) {n total : Nat} (h : n < total) :
    MarkTrue (quoteText strArgBufLen (m.bytes addr n) true) total ↔ MarkFits m addr n := by
  have hle := shownBytes_le m addr n
  rw [markTrue_iff, ← markFits_iff, iff_true_right (show shownBytes m addr n < total by omega)]
  exact and_iff_right rfl

/-- Below the cap, it never is. -/
theorem markTrue_short (m : Mem) (addr : Word) (n : Nat) :
    MarkTrue (quoteText strArgBufLen (m.bytes addr n) false) n ↔ AllFit m addr n := by
  have hle := shownBytes_le m addr n
  rw [markTrue_iff, ← shownBytes_eq_iff,
    iff_false_left (show ¬ (false = true ∧ _) from fun h => absurd h.1 (by decide))]
  omega

/-- A string of exactly the cap, when the cap is a whole number of words: the NUL is not
looked at, and the marker asked for. -/
theorem markTrue_exact (m : Mem) (addr : Word) (n : Nat) :
    MarkTrue (quoteText strArgBufLen (m.bytes addr n) true) n ↔
      (AllFit m addr n ∧ 1018 < dumpWidth m addr n) ∨ ∃ j < n, dumpWidth m addr j = 1018 := by
  have hle := shownBytes_le m addr n
  rw [markTrue_iff, ← shownBytes_eq_iff]
  rcases Nat.lt_or_eq_of_le hle with hlt | heq
  · have hne : ¬ (shownBytes m addr n = n ∧ 1018 < dumpWidth m addr n) := fun h => by omega
    rw [iff_true_right hlt, or_iff_right hne, ← width_eq_of_cut m addr n hlt]
    exact and_iff_right rfl
  · have hno : ¬ ∃ j < n, dumpWidth m addr j = 1018 := by
      rintro ⟨j, hj, hw⟩
      have := (lt_shownBytes_iff m addr n hj).mp (by omega)
      omega
    rw [heq, iff_false_right (lt_irrefl n), or_iff_left hno]
    simp only [true_and]
    omega

/-- `read_child_string` and `read_child_buffer` in a slot: when the marker tells the truth. -/
theorem marker_right_iff {host : Host} {m : Mem} (hm : ∀ a, (m a).isSome) {addr : Word}
    (haddr : addr ≠ 0) (hmax : 1 ≤ host.maxStrLen ∧ host.maxStrLen ≤ 1024) (init : Nat → Byte) :
    (∀ len, StringAt m addr len →
      (MarkTrue (readChildString host m addr (new 1024 init)).str len ↔
        StringMarkRight host m addr len)) ∧
    (∀ len, 0 < len →
      (MarkTrue (readChildBuffer host m addr len (new 1024 init)).str len ↔
        BufferMarkRight host m addr len)) := by
  refine ⟨fun len hlen => ?_, fun len hlen => ?_⟩
  · rw [readChildString_eq_run, stringDump_mapped hm hlen haddr hmax,
      Dump.str_quoted (by decide) _ _ (by decide)]
    change MarkTrue (quoteText strArgBufLen _ _) len ↔ _
    unfold StringMarkRight
    by_cases hlong : host.maxStrLen < len
    · rw [if_pos hlong, min_eq_right hlong.le, decide_eq_true (Or.inl hlong)]
      exact markTrue_long m addr hlong
    · rw [if_neg hlong, min_eq_left (by omega)]
      split
      · rename_i hexact
        rw [decide_eq_true (Or.inr hexact)]
        exact markTrue_exact m addr len
      · rename_i hshort
        rw [decide_eq_false (not_or.mpr ⟨hlong, hshort⟩)]
        exact markTrue_short m addr len
  · rw [readChildBuffer_eq_run, bufferDump_mapped hm haddr hmax hlen,
      Dump.str_quoted (by decide) _ _ (by decide)]
    change MarkTrue (quoteText strArgBufLen _ _) len ↔ _
    unfold BufferMarkRight
    by_cases hlong : host.maxStrLen < len
    · rw [if_pos hlong, min_eq_right hlong.le, decide_eq_true hlong]
      exact markTrue_long m addr hlong
    · rw [if_neg hlong, min_eq_left (by omega), decide_eq_false hlong]
      exact markTrue_short m addr len

/-- Eight letters and a NUL. -/
def eightLetters : Mem := fun a => if a = 0x1008 then some 0 else some 0x61

theorem eightLetters_mapped : ∀ a, (eightLetters a).isSome := by
  intro a
  unfold eightLetters
  split <;> rfl

theorem eightLetters_string : StringAt eightLetters 0x1000 8 where
  chars := by
    intro i hi
    refine ⟨0x61, by decide, ?_⟩
    interval_cases i <;> rfl
  nul := rfl

theorem marker_right_eight :
    (∀ a, (eightLetters a).isSome) ∧ StringAt eightLetters 0x1000 8 ∧
    MarkTrue (readChildString default eightLetters 0x1000 (new 1024 fun _ => 0)).str 8 ∧
    MarkTrue (readChildBuffer default eightLetters 0x1000 8 (new 1024 fun _ => 0)).str 8 := by
  have h := @marker_right_iff default _ eightLetters_mapped 0x1000 (by decide)
    (by decide) fun _ => 0
  have hfit : AllFit eightLetters 0x1000 8 := Or.inr (by with_unfolding_all decide)
  exact ⟨eightLetters_mapped, eightLetters_string, (h.1 8 eightLetters_string).mpr hfit,
    (h.2 8 (by decide)).mpr hfit⟩

/-- The first `n` bytes of a memory full of the byte 1 take four characters each. -/
theorem dumpWidth_ones (addr : Word) (n : Nat) : dumpWidth (fun _ => some 1) addr n = 4 * n := by
  have hone : (escape 1).length = 4 := by with_unfolding_all decide
  unfold dumpWidth escaped
  rw [Mem.bytes_const]
  induction n with
  | zero => rfl
  | succ n ih => rw [List.replicate_succ, List.flatMap_cons, List.length_append, ih, hone]; omega

/-- With `-s 8`, a string of eight letters is shown whole and marked as longer.  With
`-s 1024`, 300 bytes that need escapes are cut off and not marked. -/
theorem marker_wrong :
    StringAt eightLetters 0x1000 8 ∧
    ¬ MarkTrue (readChildString { (default : Host) with maxStrLen := 8 } eightLetters 0x1000
      (new 1024 fun _ => 0)).str 8 ∧
    ¬ MarkTrue (readChildBuffer { (default : Host) with maxStrLen := 1024 } (fun _ => some 1) 0x1000
      300 (new 1024 fun _ => 0)).str 300 := by
  refine ⟨eightLetters_string, ?_, ?_⟩
  · rw [readChildString_eq_run, stringDump_mapped eightLetters_mapped eightLetters_string
      (by decide) (by decide), Dump.str_quoted (by decide) _ _ (by decide)]
    change ¬ MarkTrue (quoteText strArgBufLen (eightLetters.bytes 0x1000 8) true) 8
    rw [markTrue_exact]
    rintro (⟨-, h⟩ | h)
    · exact absurd h (by with_unfolding_all decide)
    · exact absurd h (by with_unfolding_all decide)
  · rw [readChildBuffer_eq_run, bufferDump_mapped (fun _ => rfl) (by decide) (by decide)
      (by decide), Dump.str_quoted (by decide) _ _ (by decide)]
    change ¬ MarkTrue (quoteText strArgBufLen (Mem.bytes (fun _ => some 1) 0x1000 300) false) 300
    rw [markTrue_short]
    rintro (h | h)
    · exact absurd h (by decide)
    · rw [dumpWidth_ones] at h
      omega

end MiniStrace
