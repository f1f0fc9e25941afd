/-
  Decoders/Getdents.lean --- the records `format_getdents_buf` prints.

  THE REFERENCE.  `records` reads a buffer of directory entries by their format alone: a
  record is there when its header is, its length holds at least the header and the whole
  record lies in the buffer; the next record starts where it ends.

  THE LOOP.  The decoder's loop walks over the same records and prints the first eight.
  `getdentsReads` are the positions of the buffer it looks at, all of them below the number
  of bytes that were copied; on a buffer that agrees there it does the same.

  THE DOTS.  The loop compares where it ended with the number of bytes it copied, which is
  the number the kernel returned only up to 4096.
-/
import MiniStrace.Decoders.Arrays
import MiniStrace.Decoders.Embedded

set_option autoImplicit false

namespace MiniStrace

open CLib OutBuf

/-! ## The format -/

/-- A directory entry. -/
structure Dirent where
  ino : Nat
  off : Int
  reclen : Nat
  type : Nat
  name : Text

/-- The entry at `pos`, as the fields of its header say; the name ends at the first NUL or
with the record. -/
def direntAt (buf : Text) (pos : Nat) : Dirent where
  ino := field buf pos 8
  off := fieldInt buf (pos + 8) 8
  reclen := field buf (pos + 16) 2
  type := field buf (pos + 18) 1
  name := cstr ((buf.drop (pos + 19)).take (field buf (pos + 16) 2 - 19))

/-- There is a record at `pos`. -/
def IsRecord (buf : Text) (pos : Nat) : Prop :=
  pos + 19 ≤ buf.length ∧ 19 ≤ (direntAt buf pos).reclen ∧
    pos + (direntAt buf pos).reclen ≤ buf.length

instance (buf : Text) (pos : Nat) : Decidable (IsRecord buf pos) :=
  inferInstanceAs (Decidable (_ ∧ _ ∧ _))

/-- The records from `pos` on. -/
def records (buf : Text) (pos : Nat) : List Dirent :=
  if _h : IsRecord buf pos then direntAt buf pos :: records buf (pos + (direntAt buf pos).reclen)
  else []
termination_by buf.length - pos
decreasing_by
  obtain ⟨hhead, hlen, -⟩ := _h
  omega

/-- What is printed for an entry. -/
def Dirent.text (e : Dirent) : Text :=
  lit "\x7bd_ino=" ++ dec e.ino ++ lit ", d_off=" ++ decInt e.off ++ lit ", d_reclen=" ++
    dec e.reclen ++ lit ", d_name=\"" ++ e.name ++ lit "\", d_type=" ++
    lit (direntTypeName e.type) ++ lit "\x7d"

/-- The bytes the entries take. -/
def bytesOf (entries : List Dirent) : Nat := (entries.map (·.reclen)).sum

theorem field_drop (buf : Text) (pos off len : Nat) :
    field (buf.drop pos) off len = field buf (pos + off) len := by
  rw [field, field, List.drop_drop]

theorem direntText_drop (buf : Text) (pos : Nat) :
    direntText (buf.drop pos) = (direntAt buf pos).text := by
  simp only [direntText, Dirent.text, direntAt, dName, dReclen, cstrPrec, fieldInt, field_drop,
    List.drop_drop, getdentsHeaderSize, Nat.add_zero]

/-- The records lie one behind the other in the buffer. -/
theorem bytesOf_take_records (buf : Text) (pos k : Nat) (h : pos ≤ buf.length) :
    pos + bytesOf ((records buf pos).take k) ≤ buf.length := by
  induction k generalizing pos with
  | zero => simpa [bytesOf] using h
  | succ k ih =>
      rw [records]
      split
      · rename_i hrec
        have hnext := ih _ hrec.2.2
        rw [List.take_succ_cons, bytesOf, List.map_cons, List.sum_cons]
        rw [bytesOf] at hnext
        omega
      · simpa [bytesOf] using h

/-! ## The loop -/

section Congr

variable {buf buf' : Text} {pos : Nat}

end Congr

theorem dReclen_drop (buf : Text) (pos : Nat) :
    dReclen (buf.drop pos) = (direntAt buf pos).reclen := field_drop buf pos 16 2

theorem records_of_isRecord {buf : Text} {pos : Nat} (h : IsRecord buf pos) :
    records buf pos = direntAt buf pos :: records buf (pos + (direntAt buf pos).reclen) := by
  rw [records, dif_pos h]

theorem records_of_not_isRecord {buf : Text} {pos : Nat} (h : ¬IsRecord buf pos) :
    records buf pos = [] := by
  rw [records, dif_neg h]

/-- The walk of the decoder goes over the first eight records, ends where they end, and is
cut short only before the end of the buffer. -/
theorem getdentsWalk_records (buf : Text) (pos count : Nat) (hcount : count ≤ 8) :
    (getdentsWalk buf pos count).entries.map direntText =
        ((records buf pos).take (8 - count)).map Dirent.text ∧
      (getdentsWalk buf pos count).pos = pos + bytesOf ((records buf pos).take (8 - count)) ∧
      ((getdentsWalk buf pos count).more = true →
        (getdentsWalk buf pos count).pos < buf.length) := by
  have hsize : getdentsHeaderSize = 19 := rfl
  have hmax : getdentsMaxEntries = 8 := rfl
  fun_induction getdentsWalk buf pos count with
  | case1 pos count hle entry reclen hbad =>
      have hreclen : reclen = (direntAt buf pos).reclen := dReclen_drop buf pos
      have hno : ¬IsRecord buf pos := fun ⟨_, hlen, hend⟩ => by omega
      have hlt : pos < buf.length := by omega
      rw [records_of_not_isRecord hno]
      simpa [bytesOf] using hlt
  | case2 pos count hle entry reclen hok hfull =>
      obtain rfl : count = 8 := by omega
      have hlt : pos < buf.length := by omega
      simpa [bytesOf] using hlt
  | case3 pos count hle entry reclen hok hfull w ih =>
      have hreclen : reclen = (direntAt buf pos).reclen := dReclen_drop buf pos
      have hrec : IsRecord buf pos := ⟨by omega, by omega, by omega⟩
      obtain ⟨hentries, hpos, hmore⟩ := ih (by omega)
      have hleft : 8 - count = 8 - (count + 1) + 1 := by omega
      rw [records_of_isRecord hrec, hleft, List.take_succ_cons, ← hreclen]
      refine ⟨?_, ?_, hmore⟩
      · rw [List.map_cons, List.map_cons, hentries, direntText_drop]
      · rw [hpos, bytesOf, bytesOf, List.map_cons, List.sum_cons, ← hreclen, Nat.add_assoc]
  | case4 pos count hle =>
      have hno : ¬IsRecord buf pos := fun hrec => hle hrec.1
      rw [records_of_not_isRecord hno]
      simp [bytesOf]

theorem direntsText_eq_sepItems (count : Nat) (entries : List Text) :
    direntsText count entries = sepItems (decide (count = 0)) (entries.map direntText) := by
  induction entries generalizing count with
  | nil => rfl
  | cons entry entries ih => simp [direntsText, sepItems_cons, ih]

/-! ## The text -/

/-- The bytes that are copied. -/
def getdentsBytes (m : Mem) (addr : Word) (ret : Int) : Text :=
  readChildRaw m addr (min ret.toNat getdentsMaxBytes)

/-- The entries that are printed. -/
def shownDirents (m : Mem) (addr : Word) (ret : Int) : List Dirent :=
  (records (getdentsBytes m addr ret) 0).take getdentsMaxEntries

/-- The text, by the records of the bytes copied: the first eight, and dots when they do not
reach the end of these bytes. -/
def direntListText (m : Mem) (addr : Word) (ret : Int) : Text :=
  if (getdentsBytes m addr ret).length < getdentsHeaderSize then hex0x addr.toNat
  else
    lit "[" ++ (lit ", ").intercalate ((shownDirents m addr ret).map Dirent.text) ++
      (if bytesOf (shownDirents m addr ret) < (getdentsBytes m addr ret).length then
        (if shownDirents m addr ret = [] then lit "..." else lit ", ...") else []) ++ lit "]"

/-- The walk over the whole buffer, with what follows its entries. -/
theorem getdentsWalk_text (buf : Text) :
    direntsText 0 (getdentsWalk buf 0 0).entries ++ getdentsTail (getdentsWalk buf 0 0) buf.length =
      (lit ", ").intercalate (((records buf 0).take getdentsMaxEntries).map Dirent.text) ++
        (if bytesOf ((records buf 0).take getdentsMaxEntries) < buf.length then
          (if (records buf 0).take getdentsMaxEntries = [] then lit "..." else lit ", ...")
        else []) ++ lit "]" := by
  have hdots : lit ", " ++ lit "..." = lit ", ..." := by with_unfolding_all decide
  obtain ⟨hentries, hpos, hmore⟩ := getdentsWalk_records buf 0 0 (Nat.zero_le 8)
  generalize hshown : (records buf 0).take (8 - 0) = shown at hentries hpos
  have hmark : ((getdentsWalk buf 0 0).more || decide ((getdentsWalk buf 0 0).pos < buf.length)) =
      decide (bytesOf shown < buf.length) := by
    rw [hpos, Nat.zero_add] at hmore ⊢
    cases hm : (getdentsWalk buf 0 0).more with
    | true => simp [hmore hm]
    | false => rfl
  have hnone : (getdentsWalk buf 0 0).entries.length = 0 ↔ shown = [] := by
    have hlen := congrArg List.length hentries
    rw [List.length_map, List.length_map] at hlen
    rw [hlen, List.length_eq_zero_iff]
  change _ = (lit ", ").intercalate (((records buf 0).take (8 - 0)).map Dirent.text) ++
    (if bytesOf ((records buf 0).take (8 - 0)) < buf.length then
      (if (records buf 0).take (8 - 0) = [] then lit "..." else lit ", ...") else []) ++ lit "]"
  rw [direntsText_eq_sepItems, hentries, show decide (0 = 0) = true from rfl, sepItems_true,
    getdentsTail, hmark, hshown, ← List.append_assoc]
  simp only [decide_eq_true_eq, hnone]
  split_ifs <;> simp [hdots]

theorem getdentsText_eq (m : Mem) (addr : Word) (ret : Int) :
    getdentsText m addr ret = direntListText m addr ret := by
  have hwant : (if ret.toNat < getdentsMaxBytes then ret.toNat else getdentsMaxBytes) =
      min ret.toNat getdentsMaxBytes := by split <;> omega
  unfold getdentsText direntListText
  by_cases hret : ret ≤ 0
  · have hnone : (getdentsBytes m addr ret).length < getdentsHeaderSize := by
      have hle := length_readChildRaw_le m addr (min ret.toNat getdentsMaxBytes)
      have hzero : ret.toNat = 0 := by omega
      rw [hzero, Nat.zero_min] at hle
      rw [getdentsBytes, hzero, Nat.zero_min]
      exact lt_of_le_of_lt hle (by decide)
    rw [if_pos hret, if_pos hnone]
  · rw [if_neg hret]
    dsimp only
    rw [hwant]
    change (if (getdentsBytes m addr ret).length < _ then _ else _) = _
    split
    · rfl
    · have hwalk := getdentsWalk_text (getdentsBytes m addr ret)
      simp only [List.append_assoc, List.append_right_inj] at hwalk ⊢
      exact hwalk

theorem getdentsText_ne_zero (m : Mem) (addr : Word) (ret : Int) :
    ∀ c ∈ getdentsText m addr ret, c ≠ 0 := by
  have hopen : Clean (lit "[") := by with_unfolding_all decide
  unfold getdentsText
  split
  · exact fun c hc => (clean_hex0x _).ne_zero hc
  · dsimp only
    generalize readChildRaw m addr _ = buf
    split
    · exact fun c hc => (clean_hex0x _).ne_zero hc
    · intro c hc
      simp only [List.mem_append] at hc
      rcases hc with (hc | hc) | hc
      · exact hopen.ne_zero hc
      · exact direntsText_ne_zero 0 _ c hc
      · exact (getdentsTail_clean _ _).ne_zero hc

/-- What an array with room for the whole text holds. -/
theorem formatGetdentsBuf_str (m : Mem) (addr : Word) (ret : Int) {outSize : Word}
    (hroom : (direntListText m addr ret).length < outSize.toNat) (init : Nat → Byte) :
    (formatGetdentsBuf m addr ret (new outSize.toNat init)).str = direntListText m addr ret := by
  rw [(formatGetdentsBuf_fills m addr ret).str_eq_cut (by omega) outSize.isLt (by omega)
    (getdentsText_ne_nil m addr ret), cut_of_lt (getdentsText_ne_zero m addr ret)
    (by rw [getdentsText_eq]; exact hroom),
    getdentsText_eq]

/-- The text ends in dots and a bracket. -/
def HasDots (t : Text) : Prop := lit "...]" <:+ t

/-- The dots say that the entries printed are not all that the kernel returned. -/
def DotsRight (m : Mem) (addr : Word) (ret : Int) (t : Text) : Prop :=
  HasDots t ↔ (bytesOf (shownDirents m addr ret) : Int) ≠ ret

theorem not_hasDots_hex0x (n : Nat) : ¬HasDots (hex0x n) := by
  have hlit : (0x5d : Byte) ∈ lit "...]" := by with_unfolding_all decide
  exact fun h => not_mem_hex0x (by with_unfolding_all decide) (by decide) n (h.subset hlit)

theorem hasDots_append (t : Text) : HasDots (t ++ lit "..." ++ lit "]") := by
  have hlit : lit "...]" = lit "..." ++ lit "]" := by with_unfolding_all decide
  rw [HasDots, hlit, List.append_assoc]
  exact List.suffix_append _ _

theorem not_hasDots_brace (t : Text) : ¬HasDots (t ++ lit "\x7d" ++ lit "]") := by
  have hlit : lit "...]" = [0x2e, 0x2e] ++ [0x2e, 0x5d] ∧ lit "\x7d" ++ lit "]" = [0x7d, 0x5d] := by
    with_unfolding_all decide
  rintro ⟨u, hu⟩
  rw [hlit.1, List.append_assoc t, hlit.2, ← List.append_assoc] at hu
  exact absurd (List.append_inj' hu rfl).2 (by decide)

/-- A list of entries that is not empty ends in a brace. -/
theorem dirents_end {entries : List Dirent} (hne : entries ≠ []) :
    ∃ t, (lit ", ").intercalate (entries.map Dirent.text) = t ++ lit "\x7d" := by
  obtain ⟨front, last, rfl⟩ := List.eq_nil_or_concat entries |>.resolve_left hne
  rw [← sepItems_true, List.concat_eq_append, List.map_append, sepItems_append]
  simp only [List.map_cons, List.map_nil, sepItems_cons, sepItems, List.append_nil, Dirent.text,
    ← List.append_assoc]
  exact ⟨_, rfl⟩

theorem bytesOf_nil : bytesOf [] = 0 := rfl

/-- A list has dots exactly when its entries end before the bytes that were copied. -/
theorem direntListText_hasDots_iff (m : Mem) (addr : Word) (ret : Int) :
    HasDots (direntListText m addr ret) ↔
      getdentsHeaderSize ≤ (getdentsBytes m addr ret).length ∧
        bytesOf (shownDirents m addr ret) < (getdentsBytes m addr ret).length := by
  have hdots : lit ", ..." = lit ", " ++ lit "..." := by with_unfolding_all decide
  unfold direntListText
  by_cases hshort : (getdentsBytes m addr ret).length < getdentsHeaderSize
  · rw [if_pos hshort]
    exact iff_of_false (not_hasDots_hex0x _) fun h => absurd h.1 (by omega)
  · rw [if_neg hshort]
    by_cases hlt : bytesOf (shownDirents m addr ret) < (getdentsBytes m addr ret).length
    · refine iff_of_true ?_ ⟨by omega, hlt⟩
      rw [if_pos hlt]
      split
      · exact hasDots_append _
      · rw [hdots, ← List.append_assoc]
        exact hasDots_append _
    · refine iff_of_false ?_ fun h => hlt h.2
      have hne : shownDirents m addr ret ≠ [] := fun hnil => by
        have hsize : getdentsHeaderSize = 19 := rfl
        rw [hnil, bytesOf_nil] at hlt
        omega
      obtain ⟨t, ht⟩ := dirents_end hne
      rw [if_neg hlt, List.append_nil, ht, ← List.append_assoc]
      exact not_hasDots_brace _

/-- There is no record in less than a header. -/
theorem bytesOf_shownDirents_short {m : Mem} {addr : Word} {ret : Int}
    (h : (getdentsBytes m addr ret).length < 19) : bytesOf (shownDirents m addr ret) = 0 := by
  have hno : ¬IsRecord (getdentsBytes m addr ret) 0 := fun hrec => absurd hrec.1 (by omega)
  rw [shownDirents, records_of_not_isRecord hno, List.take_nil, bytesOf_nil]

/-- For a buffer that is mapped, the dots are right when at least a header was returned and,
for more than 4096 bytes, the entries printed do not end exactly with the 4096 that are
copied. -/
theorem getdents_dots_right_iff (m : Mem) (addr : Word) (ret : Int) (outSize : Word)
    (init : Nat → Byte) (hret : 0 < ret)
    (hmap : WordsMapped m addr (min ret.toNat getdentsMaxBytes))
    (hroom : (direntListText m addr ret).length < outSize.toNat) :
    DotsRight m addr ret (formatGetdentsBuf m addr ret (new outSize.toNat init)).str ↔
      19 ≤ ret ∧ ¬(4096 < ret ∧ bytesOf (shownDirents m addr ret) = 4096) := by
  have hgot : (getdentsBytes m addr ret).length = min ret.toNat getdentsMaxBytes :=
    length_readChildRaw_iff.mpr hmap
  have hle := bytesOf_take_records (getdentsBytes m addr ret) 0 getdentsMaxEntries (Nat.zero_le _)
  have hsize : getdentsHeaderSize = 19 := rfl
  have hmax : getdentsMaxBytes = 4096 := rfl
  rw [formatGetdentsBuf_str m addr ret hroom, DotsRight, direntListText_hasDots_iff, hgot]
  rw [hgot, Nat.zero_add] at hle
  change bytesOf (shownDirents m addr ret) ≤ _ at hle
  by_cases hshort : (getdentsBytes m addr ret).length < 19
  · have hzero := bytesOf_shownDirents_short hshort
    omega
  · omega

/-! ## Two buffers -/

/-- Records of 24 bytes one behind the other, from 0x1000 on: the files `a`, `b`, `c`, … -/
def smallRecords : Mem := fun a =>
  let p := a.toNat - 0x1000
  some (match p % 24 with
    | 0 => UInt8.ofNat (p / 24 + 1)
    | 16 => 24
    | 18 => 8
    | 19 => UInt8.ofNat (0x61 + p / 24)
    | _ => 0)

def smallDirent (k : Nat) : Dirent := ⟨k + 1, 0, 24, 8, [UInt8.ofNat (0x61 + k)]⟩

theorem getdentsBytes_smallRecords {n : Nat} (hn : n ≤ 9) :
    getdentsBytes smallRecords 0x1000 (24 * n : Nat) = smallRecords.bytes 0x1000 (24 * n) := by
  have hmin : min ((24 * n : Nat) : Int).toNat getdentsMaxBytes = 24 * n := by
    rw [Int.toNat_natCast, getdentsMaxBytes]
    omega
  rw [getdentsBytes, hmin]
  exact readChildRaw_whole fun _ _ => rfl

theorem direntAt_smallRecords {n k : Nat} (hn : n ≤ 9) (hk : k < n) :
    direntAt (smallRecords.bytes 0x1000 (24 * n)) (24 * k) = smallDirent k := by
  have hbytes : ∀ k < 9,
      leNat (smallRecords.bytes (0x1000 + BitVec.ofNat 64 (24 * k)) 8) = k + 1 ∧
      leNat (smallRecords.bytes (0x1000 + BitVec.ofNat 64 (24 * k + 8)) 8) = 0 ∧
      leNat (smallRecords.bytes (0x1000 + BitVec.ofNat 64 (24 * k + 16)) 2) = 24 ∧
      leNat (smallRecords.bytes (0x1000 + BitVec.ofNat 64 (24 * k + 18)) 1) = 8 ∧
      cstr (smallRecords.bytes (0x1000 + BitVec.ofNat 64 (24 * k + 19)) 5) =
        [UInt8.ofNat (0x61 + k)] := by
    decide +kernel
  obtain ⟨hino, hoff, hreclen, htype, hname⟩ := hbytes k (by omega)
  unfold direntAt
  rw [Mem.field_bytes _ _ (by omega), fieldInt, Mem.field_bytes _ _ (by omega),
    Mem.field_bytes _ _ (by omega), Mem.field_bytes _ _ (by omega), hino, hoff, hreclen, htype,
    Mem.drop_bytes _ _ (by omega), Mem.take_bytes _ _ (by omega), hname]
  rfl

theorem records_smallRecords {n k : Nat} (hn : n ≤ 9) (hk : k ≤ n) :
    records (smallRecords.bytes 0x1000 (24 * n)) (24 * k) =
      (List.range' k (n - k)).map smallDirent := by
  induction hleft : n - k generalizing k with
  | zero =>
      have hend : ¬IsRecord (smallRecords.bytes 0x1000 (24 * n)) (24 * k) := fun h => by
        have hlen := h.1
        rw [Mem.length_bytes] at hlen
        omega
      rw [records_of_not_isRecord hend]
      rfl
  | succ left ih =>
      have hat := direntAt_smallRecords hn (k := k) (by omega)
      have hrec : IsRecord (smallRecords.bytes 0x1000 (24 * n)) (24 * k) := by
        rw [IsRecord, hat, Mem.length_bytes]
        simp only [smallDirent]
        omega
      rw [records_of_isRecord hrec, hat, List.range'_succ, List.map_cons]
      exact congrArg _ (ih (k := k + 1) (by omega) (by omega))

theorem shownDirents_smallRecords {n : Nat} (hn : n ≤ 9) :
    shownDirents smallRecords 0x1000 (24 * n : Nat) =
      ((List.range n).map smallDirent).take 8 := by
  rw [shownDirents, getdentsBytes_smallRecords hn, List.range_eq_range']
  exact congrArg _ (records_smallRecords hn (Nat.zero_le n))

/-- Nine records, of which the last is behind the dots. -/
theorem getdents_dots_right_nine :
    shownDirents smallRecords 0x1000 216 = (List.range 8).map smallDirent ∧
      HasDots (formatGetdentsBuf smallRecords 0x1000 216 (new (1024 : Word).toNat fun _ => 0)).str ∧
      DotsRight smallRecords 0x1000 216
        (formatGetdentsBuf smallRecords 0x1000 216 (new (1024 : Word).toNat fun _ => 0)).str := by
  have hshown : shownDirents smallRecords 0x1000 216 = (List.range 8).map smallDirent :=
    (@shownDirents_smallRecords 9 (by decide)).trans (by rfl)
  have hlen : (getdentsBytes smallRecords 0x1000 216).length = 216 := by
    rw [show (216 : Int) = (24 * 9 : Nat) from rfl, getdentsBytes_smallRecords (by decide),
      Mem.length_bytes]
  have hmap : WordsMapped smallRecords 0x1000 (min (216 : Int).toNat getdentsMaxBytes) :=
    fun _ _ => rfl
  have hroom : (direntListText smallRecords 0x1000 216).length < (1024 : Word).toNat := by
    rw [direntListText, hshown, hlen]
    decide +kernel
  have hright := (getdents_dots_right_iff smallRecords 0x1000 216 1024 (fun _ => 0) (by decide)
    hmap hroom).mpr ⟨by decide, fun h => absurd h.1 (by decide)⟩
  refine ⟨hshown, hright.mpr ?_, hright⟩
  rw [hshown]
  decide

/-- One record that takes all of 4096 bytes, in memory that is otherwise zero. -/
def hugeRecord : Mem := fun a => some (if a = 0x1011 then 0x10 else 0)

theorem direntAt_hugeRecord : direntAt (hugeRecord.bytes 0x1000 4096) 0 = ⟨0, 0, 4096, 0, []⟩ := by
  have hlen : leNat (hugeRecord.bytes (0x1000 + BitVec.ofNat 64 (0 + 16)) 2) = 4096 := by decide
  have hnul : hugeRecord.bytes (0x1000 + BitVec.ofNat 64 (0 + 19)) 1 = [0] := by decide
  have hname : cstr (hugeRecord.bytes (0x1000 + BitVec.ofNat 64 (0 + 19)) (1 + 4076)) = [] := by
    rw [hugeRecord.bytes_add, hnul]
    simp [cstr]
  unfold direntAt
  rw [Mem.field_bytes _ _ (by decide), fieldInt, Mem.field_bytes _ _ (by decide),
    Mem.field_bytes _ _ (by decide), Mem.field_bytes _ _ (by decide), hlen,
    Mem.drop_bytes _ _ (by decide), Mem.take_bytes _ _ (by decide)]
  simp only [Dirent.mk.injEq, true_and]
  exact ⟨by decide, by decide, by decide, hname⟩

theorem getdentsBytes_hugeRecord :
    getdentsBytes hugeRecord 0x1000 8192 = hugeRecord.bytes 0x1000 4096 :=
  readChildRaw_whole fun _ _ => rfl

theorem shownDirents_hugeRecord : shownDirents hugeRecord 0x1000 8192 = [⟨0, 0, 4096, 0, []⟩] := by
  have hrec : IsRecord (hugeRecord.bytes 0x1000 4096) 0 := by
    rw [IsRecord, direntAt_hugeRecord, Mem.length_bytes]
    decide
  have hend : ¬IsRecord (hugeRecord.bytes 0x1000 4096) (0 + 4096) := fun h => by
    have hlen := h.1
    rw [Mem.length_bytes] at hlen
    exact absurd hlen (by decide)
  rw [shownDirents, getdentsBytes_hugeRecord, records_of_isRecord hrec, direntAt_hugeRecord,
    records_of_not_isRecord hend]
  exact List.take_of_length_le (by simp [getdentsMaxEntries])

/-- The kernel returned 8192 bytes, and the list ends with the first 4096 and without dots. -/
theorem getdents_dots_missing :
    WordsMapped hugeRecord 0x1000 (min (8192 : Int).toNat getdentsMaxBytes) ∧
      (direntListText hugeRecord 0x1000 8192).length < (1024 : Word).toNat ∧
      ¬DotsRight hugeRecord 0x1000 8192
        (formatGetdentsBuf hugeRecord 0x1000 8192 (new (1024 : Word).toNat fun _ => 0)).str := by
  have hlen : (getdentsBytes hugeRecord 0x1000 8192).length = 4096 := by
    rw [getdentsBytes_hugeRecord, Mem.length_bytes]
  have htext : direntListText hugeRecord 0x1000 8192 =
      lit "[\x7bd_ino=0, d_off=0, d_reclen=4096, d_name=\"\", d_type=DT_UNKNOWN\x7d]" := by
    rw [direntListText, shownDirents_hugeRecord, hlen]
    with_unfolding_all decide
  have hroom : (direntListText hugeRecord 0x1000 8192).length < (1024 : Word).toNat := by
    rw [htext]
    with_unfolding_all decide
  refine ⟨fun _ _ => rfl, hroom, fun h => ?_⟩
  have hno : ¬HasDots (direntListText hugeRecord 0x1000 8192) := fun hdots => by
    have hlt := ((direntListText_hasDots_iff _ _ _).mp hdots).2
    rw [shownDirents_hugeRecord, hlen] at hlt
    exact absurd hlt (by decide)
  rw [formatGetdentsBuf_str _ _ _ hroom, DotsRight, shownDirents_hugeRecord] at h
  exact hno (h.mpr (by decide))

end MiniStrace
