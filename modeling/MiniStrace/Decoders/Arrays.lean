/-
  Decoders/Arrays.lean --- which elements the array decoders show.

  THE ENTRIES.  `arrayReads` are the texts of the entries that can be read one after the
  other.  The loop shows the first eight of them and puts dots behind them when more than
  eight were declared; an entry that cannot be read ends the loop without a mark.

  THE BUDGET.  For the calls that receive, the return value is all that is known about how
  the kernel filled the buffers.  `iovecReads` records what the loop takes from it for each
  buffer, in the loop's own order.
-/
import MiniStrace.Decoders.ListText
import MiniStrace.Lib.Listing

set_option autoImplicit false

namespace MiniStrace

open CLib OutBuf

/-! ## Entries -/

section Entries

variable {σ : Type} (item : Nat → σ → Option (Text × σ))

/-- The texts of the entries that can be read, with `k` entries left from index `i` on. -/
def arrayReads : Nat → Nat → σ → List Text
  | 0, _, _ => []
  | k + 1, i, s =>
      match item i s with
      | none => []
      | some (t, s) => t :: arrayReads k (i + 1) s

theorem arrayItems_eq_sepItems (k i : Nat) (s : σ) :
    arrayItems item k i s = sepItems (decide (i = 0)) (arrayReads item k i s) := by
  induction k generalizing i s with
  | zero => rfl
  | succ k ih =>
      rw [arrayItems, arrayReads]
      cases item i s with
      | none => rfl
      | some elem => simp [sepItems_cons, ih]

theorem length_arrayReads_le (k i : Nat) (s : σ) : (arrayReads item k i s).length ≤ k := by
  induction k generalizing i s with
  | zero => exact le_refl 0
  | succ k ih =>
      rw [arrayReads]
      cases item i s with
      | none => exact Nat.zero_le _
      | some elem => exact Nat.succ_le_succ (ih _ _)

/-- The entries read by a shorter loop are the first ones read by a longer one. -/
theorem arrayReads_take {j k : Nat} (h : j ≤ k) (i : Nat) (s : σ) :
    arrayReads item j i s = (arrayReads item k i s).take j := by
  induction j generalizing k i s with
  | zero => simp [arrayReads]
  | succ j ih =>
      obtain ⟨k, rfl⟩ : ∃ k', k = k' + 1 := ⟨k - 1, by omega⟩
      rw [arrayReads, arrayReads]
      cases item i s with
      | none => rfl
      | some elem => simp [ih (Nat.le_of_succ_le_succ h)]

/-- What stands between the first `k` of `count` entries and the bracket. -/
def moreMark (k count : Nat) : Text :=
  if k < count then (if k = 0 then lit "..." else lit ", ...") else []

/-- The text is the bracketed list of the first entries, with dots exactly when these are
not all that were declared. -/
def ShowsEntries (count : Nat) (s : σ) (t : Text) : Prop :=
  ∃ k ≤ count, (arrayReads item k 0 s).length = k ∧
    t = lit "[" ++ (lit ", ").intercalate (arrayReads item k 0 s) ++ moreMark k count ++ lit "]"

/-- The loop shows the entries it could read, and dots for a count above eight. -/
theorem arrayText_eq (count : Nat) (s : σ) :
    arrayText item count s = lit "[" ++ (sepItems true (arrayReads item (min count arrayMax) 0 s) ++
      ((if count > arrayMax then lit ", ..." else []) ++ lit "]")) := by
  have hcap : (if count > arrayMax then arrayMax else count) = min count arrayMax := by
    split <;> omega
  rw [arrayText, hcap, arrayItems_eq_sepItems]
  simp only [decide_true, List.append_assoc]

/-- The two marks of `moreMark`. -/
theorem marks_ne : lit "..." ≠ [] ∧ lit ", ..." ≠ [] ∧ lit "..." ≠ lit ", ..." := by
  with_unfolding_all decide

theorem moreMark_eq_nil_iff {k count : Nat} : moreMark k count = [] ↔ ¬k < count := by
  unfold moreMark
  split_ifs <;> simp_all [marks_ne]

theorem moreMark_eq_more_iff {k count : Nat} :
    moreMark k count = lit ", ..." ↔ k < count ∧ k ≠ 0 := by
  unfold moreMark
  split_ifs <;> simp_all [marks_ne, eq_comm (a := ([] : Text))]

theorem moreMark_foreign (k count : Nat) :
    Foreign (decide (k = 0)) (moreMark k count ++ lit "]") := by
  unfold moreMark
  split_ifs with hlt hzero
  · rw [decide_eq_true hzero]
    exact foreign_dots _
  · exact foreign_more _ _
  · exact foreign_bracket _

variable {item}

theorem arrayReads_opens (hopens : ∀ i s t s', item i s = some (t, s') → Opens t) (k i : Nat)
    (s : σ) : ∀ t ∈ arrayReads item k i s, Opens t := by
  induction k generalizing i s with
  | zero => simp [arrayReads]
  | succ k ih =>
      rw [arrayReads]
      cases hitem : item i s with
      | none => simp
      | some elem =>
          intro t ht
          rcases List.mem_cons.mp ht with rfl | ht
          · exact hopens i s _ elem.2 hitem
          · exact ih _ _ t ht

/-- The number of entries the loop shows. -/
def shownEntries (item : Nat → σ → Option (Text × σ)) (count : Nat) (s : σ) : Nat :=
  min (min count arrayMax) (arrayReads item count 0 s).length

/-- The text shows the first `k` entries for one `k` only. -/
theorem arrayText_eq_iff (hopens : ∀ i s t s', item i s = some (t, s') → Opens t)
    {count k : Nat} {s : σ} (hk : k ≤ (arrayReads item count 0 s).length) :
    arrayText item count s = lit "[" ++
        (lit ", ").intercalate ((arrayReads item count 0 s).take k) ++ moreMark k count ++ lit "]" ↔
      shownEntries item count s = k ∧
        (if count > arrayMax then lit ", ..." else []) = moreMark k count := by
  have hloop : arrayReads item (min count arrayMax) 0 s =
      (arrayReads item count 0 s).take (shownEntries item count s) := by
    rw [arrayReads_take item (min_le_left _ _), shownEntries, List.take_eq_take_min]
  have hmark : Foreign (true && decide (shownEntries item count s = 0))
      ((if count > arrayMax then lit ", ..." else []) ++ lit "]") := by
    split
    · exact foreign_more _ _
    · exact foreign_bracket _
  rw [arrayText_eq, hloop, ← sepItems_true, List.append_assoc, List.append_assoc,
    List.append_right_inj]
  constructor
  · intro h
    obtain ⟨heq, hmarks⟩ := sepItems_take_inj (arrayReads_opens hopens count 0 s)
      (min_le_right _ _) hk hmark (moreMark_foreign k count) h
    exact ⟨heq, List.append_cancel_right hmarks⟩
  · rintro ⟨rfl, hmarks⟩
    rw [hmarks]

/-- An array is shown as it should be when all of up to eight entries can be read, and,
with more than eight, when the first one can. -/
theorem arrayText_showsEntries_iff (hopens : ∀ i s t s', item i s = some (t, s') → Opens t)
    (count : Nat) (s : σ) : ShowsEntries item count s (arrayText item count s) ↔
      if count ≤ arrayMax then (arrayReads item count 0 s).length = count
      else 0 < (arrayReads item count 0 s).length := by
  have hshows : ShowsEntries item count s (arrayText item count s) ↔
      (if count > arrayMax then lit ", ..." else []) =
        moreMark (shownEntries item count s) count := by
    constructor
    · rintro ⟨k, hk, hlen, heq⟩
      rw [arrayReads_take item hk] at hlen heq
      rw [List.length_take] at hlen
      obtain ⟨rfl, hmarks⟩ := (arrayText_eq_iff hopens (by omega)).mp heq
      exact hmarks
    · intro hmarks
      have hle : shownEntries item count s ≤ (arrayReads item count 0 s).length := min_le_right _ _
      have hcount : shownEntries item count s ≤ count :=
        le_trans hle (length_arrayReads_le item count 0 s)
      refine ⟨shownEntries item count s, hcount, ?_, ?_⟩
      · rw [arrayReads_take item hcount, List.length_take, min_eq_left hle]
      · rw [arrayReads_take item hcount]
        exact (arrayText_eq_iff hopens hle).mpr ⟨rfl, hmarks⟩
  have hlen := length_arrayReads_le item count 0 s
  have hmax : arrayMax = 8 := rfl
  rw [hshows]
  by_cases hcount : count ≤ arrayMax
  · rw [if_neg (by omega), if_pos hcount, eq_comm, moreMark_eq_nil_iff, shownEntries]
    omega
  · rw [if_pos (by omega), if_neg hcount, eq_comm, moreMark_eq_more_iff, shownEntries]
    omega

/-- Where reading an entry does not depend on the state, all of them are read when each
can be. -/
theorem length_arrayReads_iff {P : Nat → Prop} (h : ∀ i s, (item i s).isSome ↔ P i) (k i : Nat)
    (s : σ) : (arrayReads item k i s).length = k ↔ ∀ j, i ≤ j → j < i + k → P j := by
  induction k generalizing i s with
  | zero => exact iff_of_true rfl fun j _ _ => by omega
  | succ k ih =>
      rw [arrayReads]
      cases hitem : item i s with
      | none =>
          refine iff_of_false (by simp) fun hall => ?_
          have hsome := (h i s).mpr (hall i (le_refl i) (by omega))
          rw [hitem] at hsome
          exact absurd hsome (by simp)
      | some elem =>
          have hi : P i := (h i s).mp (by rw [hitem]; rfl)
          dsimp only
          rw [List.length_cons, Nat.add_right_cancel_iff, ih]
          constructor
          · intro hall j hj hlt
            rcases Nat.eq_or_lt_of_le hj with rfl | hj
            · exact hi
            · exact hall j hj (by omega)
          · exact fun hall j hj hlt => hall j (by omega) (by omega)

theorem length_arrayReads_pos_iff {P : Nat → Prop} (h : ∀ i s, (item i s).isSome ↔ P i) {k : Nat}
    (hk : 0 < k) (s : σ) : 0 < (arrayReads item k 0 s).length ↔ P 0 := by
  obtain ⟨k, rfl⟩ : ∃ k', k = k' + 1 := ⟨k - 1, by omega⟩
  rw [← h 0 s, arrayReads]
  cases item 0 s with
  | none => simp
  | some elem => simp

end Entries

/-! ## The array decoders -/

/-- The decoders of arrays, with their arguments. -/
inductive ArrayDecoder where
  | iovecBuf (addr : Word) (iovcnt : Nat) (totalBytes : Int)
  | epollEventsBuf (addr : Word) (ret : Int)
  | pollfdsBuf (addr : Word) (nfds : Nat)

namespace ArrayDecoder

variable (host : Host) (m : Mem)

/-- The function a member stands for. -/
def run : ArrayDecoder → OutBuf → OutBuf
  | iovecBuf addr iovcnt totalBytes => formatIovecBuf host m addr iovcnt totalBytes
  | epollEventsBuf addr ret => formatEpollEventsBuf host m addr ret
  | pollfdsBuf addr nfds => formatPollfdsBuf host m addr nfds

/-- The text it prints, given unlimited room. -/
def text : ArrayDecoder → Text
  | iovecBuf addr iovcnt totalBytes => iovecText host m addr iovcnt totalBytes
  | epollEventsBuf addr ret => epollEventsText host m addr ret
  | pollfdsBuf addr nfds => pollfdsText host m addr nfds

/-- The number of entries the call declares. -/
def declared : ArrayDecoder → Nat
  | iovecBuf _ iovcnt _ => iovcnt
  | epollEventsBuf _ ret => ret.toNat
  | pollfdsBuf _ nfds => nfds

/-- The text shows the first entries, and dots exactly when there are more. -/
def Shows (t : Text) : ArrayDecoder → Prop
  | iovecBuf addr iovcnt totalBytes =>
      ShowsEntries (iovecItem host m addr totalBytes) iovcnt totalBytes t
  | epollEventsBuf addr ret => ShowsEntries (epollItem host m addr) ret.toNat () t
  | pollfdsBuf addr nfds => ShowsEntries (pollfdItem host m addr) nfds () t

/-- There is an array to show: a buffer, or at least one event. -/
def Present : ArrayDecoder → Prop
  | iovecBuf addr _ _ => addr ≠ 0
  | epollEventsBuf _ ret => 0 < ret
  | pollfdsBuf addr _ => addr ≠ 0

/-- The words of entry `i` are mapped. -/
def EntryMapped (i : Nat) : ArrayDecoder → Prop
  | iovecBuf addr _ _ => WordsMapped m (addr + BitVec.ofNat 64 (i * 16)) 16
  | epollEventsBuf addr _ => WordsMapped m (addr + BitVec.ofNat 64 (i * 12)) 12
  | pollfdsBuf addr _ => WordsMapped m (addr + BitVec.ofNat 64 (i * 8)) 8

/-- The array is there, and mapped as far as the decoder relies on it: all of up to eight
entries, or the first of more. -/
def Mapped (d : ArrayDecoder) : Prop :=
  d.Present ∧
    if d.declared ≤ arrayMax then ∀ i < d.declared, d.EntryMapped m i else d.EntryMapped m 0

theorem run_fills (d : ArrayDecoder) : Fills 1 (d.run host m) (d.text host m) := by
  cases d with
  | iovecBuf addr iovcnt totalBytes => exact formatIovecBuf_fills host m addr iovcnt totalBytes
  | epollEventsBuf addr ret => exact formatEpollEventsBuf_fills host m addr ret
  | pollfdsBuf addr nfds => exact formatPollfdsBuf_fills host m addr nfds

theorem text_plain (d : ArrayDecoder) : Plain (d.text host m) := by
  cases d with
  | iovecBuf addr iovcnt totalBytes => exact iovecText_plain host m addr iovcnt totalBytes
  | epollEventsBuf addr ret => exact epollEventsText_plain host m addr ret
  | pollfdsBuf addr nfds => exact pollfdsText_plain host m addr nfds

theorem readElem_isSome_iff (addr : Word) (size i : Nat) :
    (readElem m addr size i).isSome ↔ WordsMapped m (addr + BitVec.ofNat 64 (i * size)) size := by
  have hle := length_readChildRaw_le m (addr + BitVec.ofNat 64 (i * size)) size
  rw [← length_readChildRaw_iff, readElem]
  split
  · exact iff_of_false (by simp) (by omega)
  · exact iff_of_true rfl (by omega)

variable {host m}

/-- A list is not mistaken for an address or for no buffer at all. -/
theorem not_showsEntries_of_head {σ : Type} {item : Nat → σ → Option (Text × σ)} {count : Nat}
    {s : σ} {t : Text} (h : t.head? ≠ some 0x5b) : ¬ShowsEntries item count s t := by
  rintro ⟨k, -, -, rfl⟩
  rw [lit_open] at h
  exact h rfl

theorem opens_brace (t : Text) : Opens (0x7b :: t) :=
  ⟨0x7b, t, rfl, by decide, by decide, by decide⟩

theorem iovecItem_opens (addr : Word) (totalBytes : Int) (i : Nat) (remaining : Int) (t : Text)
    (remaining' : Int) (h : iovecItem host m addr totalBytes i remaining = some (t, remaining')) :
    Opens t := by
  have hlit : lit "\x7biov_base=" = 0x7b :: lit "iov_base=" := by with_unfolding_all decide
  obtain ⟨iov, -, hiov⟩ := Option.map_eq_some_iff.mp h
  rw [← (Prod.mk.inj hiov).1, hlit]
  exact opens_brace _

theorem epollItem_opens (addr : Word) (i : Nat) (s : Unit) (t : Text) (s' : Unit)
    (h : epollItem host m addr i s = some (t, s')) : Opens t := by
  have hlit : lit "\x7bevents=" = 0x7b :: lit "events=" := by with_unfolding_all decide
  obtain ⟨ev, -, hev⟩ := Option.map_eq_some_iff.mp h
  have htext : epollEventText ev = 0x7b :: (epollEventText ev).tail := by
    rw [epollEventText, hlit]
    rfl
  rw [← (Prod.mk.inj hev).1, (formatOneEpollEvent_fills host ev).str_eq_cut (by decide) (by decide)
    (by decide) (epollEventText_plain ev).ne_nil, htext]
  exact opens_brace _

theorem pollfdItem_opens (addr : Word) (i : Nat) (s : Unit) (t : Text) (s' : Unit)
    (h : pollfdItem host m addr i s = some (t, s')) : Opens t := by
  have hlit : lit "\x7bfd=" = 0x7b :: lit "fd=" := by with_unfolding_all decide
  obtain ⟨pfd, -, hpfd⟩ := Option.map_eq_some_iff.mp h
  rw [← (Prod.mk.inj hpfd).1, hlit]
  exact opens_brace _

/-- An array of structs is shown as it should be when its entries are mapped. -/
theorem arrayText_mapped_iff {σ : Type} {item : Nat → σ → Option (Text × σ)}
    (hopens : ∀ i s t s', item i s = some (t, s') → Opens t) {addr : Word} {size : Nat}
    (hitem : ∀ i s, (item i s).isSome = (readElem m addr size i).isSome) (count : Nat) (s : σ) :
    ShowsEntries item count s (arrayText item count s) ↔
      if count ≤ arrayMax then
        ∀ i < count, WordsMapped m (addr + BitVec.ofNat 64 (i * size)) size
      else WordsMapped m (addr + BitVec.ofNat 64 (0 * size)) size := by
  have hmapped : ∀ i s, (item i s).isSome ↔
      WordsMapped m (addr + BitVec.ofNat 64 (i * size)) size := fun i s => by
    rw [hitem, readElem_isSome_iff]
  rw [arrayText_showsEntries_iff hopens]
  split
  · rw [length_arrayReads_iff hmapped]
    simp
  · rename_i hcount
    exact length_arrayReads_pos_iff hmapped (by omega) s

theorem text_shows_iff (d : ArrayDecoder) : d.Shows host m (d.text host m) ↔ d.Mapped m := by
  have hnull : (lit "NULL").head? ≠ some 0x5b := by with_unfolding_all decide
  have hhex : ∀ n, (hex0x n).head? ≠ some 0x5b := fun n => by
    rw [hex0x, lit_hexLead]
    simp
  have hsome : ∀ {size i : Nat} {addr : Word} {α : Type} (f : Text → α),
      ((readElem m addr size i).map f).isSome = (readElem m addr size i).isSome :=
    fun f => Option.isSome_map
  cases d with
  | iovecBuf addr iovcnt totalBytes =>
      unfold Shows text Mapped Present iovecText
      by_cases ha : addr = 0
      · simp only [ha, if_true, ne_eq, not_true, false_and, iff_false]
        exact not_showsEntries_of_head hnull
      · simp only [ha, if_false, ne_eq, not_false_eq_true, true_and]
        exact arrayText_mapped_iff (iovecItem_opens addr totalBytes) (fun i s => hsome _) _ _
  | epollEventsBuf addr ret =>
      unfold Shows text Mapped Present epollEventsText
      by_cases hret : ret ≤ 0
      · simp only [hret, if_true, not_lt.mpr hret, false_and, iff_false]
        exact not_showsEntries_of_head (hhex _)
      · simp only [hret, if_false, not_le.mp hret, true_and]
        exact arrayText_mapped_iff (epollItem_opens addr) (fun i s => hsome _) _ _
  | pollfdsBuf addr nfds =>
      unfold Shows text Mapped Present pollfdsText
      by_cases ha : addr = 0
      · simp only [ha, if_true, ne_eq, not_true, false_and, iff_false]
        exact not_showsEntries_of_head hnull
      · simp only [ha, if_false, ne_eq, not_false_eq_true, true_and]
        exact arrayText_mapped_iff (pollfdItem_opens addr) (fun i s => hsome _) _ _

/-- What an array with room for the whole text holds. -/
theorem run_str (d : ArrayDecoder) {outSize : Word}
    (hroom : (d.text host m).length < outSize.toNat) (init : Nat → Byte) :
    (d.run host m (new outSize.toNat init)).str = d.text host m := by
  have hplain := d.text_plain host m
  rw [(d.run_fills host m).str_eq_cut (by omega) outSize.isLt (by omega) hplain.ne_nil,
    cut_of_lt (fun c hc => hplain.clean.ne_zero hc) hroom]

end ArrayDecoder

/-- With room for the whole text, the array decoders show the first entries of an array,
with dots exactly for the rest, when the array is there and all of up to eight entries, or
the first of more, are mapped. -/
theorem array_entries_shown_iff (host : Host) (m : Mem) (d : ArrayDecoder) (outSize : Word)
    (init : Nat → Byte) (hroom : (d.text host m).length < outSize.toNat) :
    d.Shows host m (d.run host m (new outSize.toNat init)).str ↔ d.Mapped m := by
  rw [d.run_str hroom]
  exact d.text_shows_iff

/-- Three `pollfd` entries at 0x1000. -/
def threePollfds : Mem := fun a =>
  some (match a.toNat with
    | 0x1000 => 3
    | 0x1004 => 1
    | 0x1006 => 1
    | 0x1008 => 4
    | 0x100c => 5
    | 0x100e => 4
    | 0x1010 => 7
    | 0x1014 => 4
    | _ => 0)

theorem array_entries_shown_three :
    (ArrayDecoder.pollfdsBuf 0x1000 3).text default threePollfds =
        lit ("[\x7bfd=3, events=POLLIN, revents=POLLIN\x7d, " ++
          "\x7bfd=4, events=POLLIN|POLLOUT, revents=POLLOUT\x7d, " ++
          "\x7bfd=7, events=POLLOUT, revents=0\x7d]") ∧
      (ArrayDecoder.pollfdsBuf 0x1000 3).Shows default threePollfds
        ((ArrayDecoder.pollfdsBuf 0x1000 3).run default threePollfds
          (new (1024 : Word).toNat fun _ => 0)).str := by
  have htext : (ArrayDecoder.pollfdsBuf 0x1000 3).text default threePollfds =
      lit ("[\x7bfd=3, events=POLLIN, revents=POLLIN\x7d, " ++
        "\x7bfd=4, events=POLLIN|POLLOUT, revents=POLLOUT\x7d, " ++
        "\x7bfd=7, events=POLLOUT, revents=0\x7d]") := by with_unfolding_all decide
  have hroom : ((ArrayDecoder.pollfdsBuf 0x1000 3).text default threePollfds).length <
      (1024 : Word).toNat := by
    rw [htext]
    decide +kernel
  refine ⟨htext, (array_entries_shown_iff _ _ _ _ _ hroom).mpr
    ⟨show (0x1000 : Word) ≠ 0 by decide, ?_⟩⟩
  change ∀ i < 3, ∀ p < 8, _
  exact fun _ _ _ _ => rfl

/-- The page below 0x2000, all of it zero, and nothing else. -/
def zeroPage : Mem := fun a => if 0x1000 ≤ a.toNat ∧ a.toNat < 0x2000 then some 0 else none

/-- Two entries are declared and the page ends after the first: the second is dropped, and
nothing says so. -/
theorem array_entry_dropped :
    (ArrayDecoder.pollfdsBuf 0x1ff8 2).text default zeroPage =
        lit "[\x7bfd=0, events=0, revents=0\x7d]" ∧
      ¬(ArrayDecoder.pollfdsBuf 0x1ff8 2).Shows default zeroPage
        ((ArrayDecoder.pollfdsBuf 0x1ff8 2).run default zeroPage
          (new (1024 : Word).toNat fun _ => 0)).str := by
  have htext : (ArrayDecoder.pollfdsBuf 0x1ff8 2).text default zeroPage =
      lit "[\x7bfd=0, events=0, revents=0\x7d]" := by with_unfolding_all decide
  have hroom : ((ArrayDecoder.pollfdsBuf 0x1ff8 2).text default zeroPage).length <
      (1024 : Word).toNat := by
    rw [htext]
    with_unfolding_all decide
  refine ⟨htext, fun hshows => ?_⟩
  rw [ArrayDecoder.run_str _ hroom, ArrayDecoder.text_shows_iff] at hshows
  have hmapped : ∀ i < 2, ∀ p < 8,
      (zeroPage (0x1ff8 + BitVec.ofNat 64 (i * 8) + BitVec.ofNat 64 p)).isSome = true := hshows.2
  exact absurd (hmapped 1 (by decide) 0 (by decide)) (by decide)

/-! ## The budget of received bytes -/

/-- One iovec the loop processes. -/
structure IovecRead where
  index : Nat
  base : Word
  /-- `iov_len` -/
  len : Nat
  /-- the length handed to `read_child_buffer` -/
  amount : Nat
  /-- `remaining_bytes` before and after -/
  before : Int
  after : Int

/-- What is printed for it. -/
def IovecRead.text (host : Host) (m : Mem) (r : IovecRead) : Text :=
  (if r.index = 0 then [] else lit ", ") ++
    (lit "\x7biov_base=" ++
      (readChildBuffer host m r.base r.amount (new strArgBufLen host.junk)).str ++
      lit ", iov_len=" ++ dec r.len ++ lit "\x7d")

section Budget

variable (host : Host) (m : Mem) (addr : Word) (totalBytes : Int)

/-- The iovec at index `i`, processed with `remaining` bytes left. -/
def iovecRead (i : Nat) (remaining : Int) (iov : Text) : IovecRead where
  index := i
  base := BitVec.ofNat 64 (field iov 0 8)
  len := field iov 8 8
  amount := showLen totalBytes remaining (field iov 8 8)
  before := remaining
  after := if totalBytes ≥ 0 then remaining - showLen totalBytes remaining (field iov 8 8)
    else remaining

/-- The iovecs the loop processes, with `k` of them left from index `i` on. -/
def iovecReads : Nat → Nat → Int → OutBuf → List IovecRead
  | 0, _, _, _ => []
  | k + 1, i, remaining, out =>
      if out.oi < out.size then
        match readElem m addr 16 i with
        | none => []
        | some iov =>
            let r := iovecRead totalBytes i remaining iov
            r :: iovecReads k (i + 1) r.after (out.snprintf (r.text host m))
      else []

/-- The loop prints the iovecs it processes. -/
theorem arrayLoop_iovecReads (k i : Nat) (remaining : Int) (out : OutBuf) :
    arrayLoop (iovecItem host m addr totalBytes) k i remaining out =
      (iovecReads host m addr totalBytes k i remaining out).foldl
        (fun out r => out.snprintf (r.text host m)) out := by
  induction k generalizing i remaining out with
  | zero => rfl
  | succ k ih =>
      rw [arrayLoop, iovecReads]
      by_cases hroom : out.oi < out.size
      · rw [if_pos hroom, if_pos hroom, iovecItem]
        cases readElem m addr 16 i with
        | none => rfl
        | some iov => exact ih _ _ _
      · rw [if_neg hroom, if_neg hroom]
        rfl

end Budget

/-- The bytes handed out to the iovecs. -/
def handedOut (reads : List IovecRead) : Nat := (reads.map (·.amount)).sum

/-- The room the iovecs have together. -/
def capacity (reads : List IovecRead) : Nat := (reads.map (·.len)).sum

/-- The bytes received, attributed to the iovecs as the kernel fills them: each gets what
is left, up to its length, the counter stays between 0 and the total, and together they get
all of it that they have room for.  Without a total, each gets its length. -/
def Attributed (totalBytes : Int) (reads : List IovecRead) : Prop :=
  if 0 ≤ totalBytes then
    (∀ (j : Nat) (r : IovecRead), reads[j]? = some r →
      r.before = totalBytes - handedOut (reads.take j) ∧
        (r.amount : Int) = min (r.len : Int) r.before ∧
        r.after = r.before - r.amount ∧
        0 ≤ r.before ∧ r.before ≤ totalBytes ∧ 0 ≤ r.after ∧ r.after ≤ totalBytes) ∧
      (handedOut reads : Int) = min totalBytes (capacity reads)
  else ∀ r ∈ reads, r.amount = r.len

theorem showLen_of_nonneg {totalBytes remaining : Int} (ht : 0 ≤ totalBytes) (hr : 0 ≤ remaining)
    (len : Nat) : (showLen totalBytes remaining len : Int) = min (len : Int) remaining := by
  rw [showLen, if_pos ht]
  dsimp only
  split_ifs <;> omega

theorem handedOut_cons (r : IovecRead) (reads : List IovecRead) :
    handedOut (r :: reads) = r.amount + handedOut reads := List.sum_cons

/-- One iovec takes its share of what is left, and leaves the rest to the others. -/
theorem attributed_cons {remaining : Int} {r : IovecRead} {reads : List IovecRead}
    (hbefore : r.before = remaining) (hr : 0 ≤ remaining)
    (hamount : (r.amount : Int) = min (r.len : Int) remaining)
    (hafter : r.after = remaining - r.amount) (h : Attributed r.after reads) :
    Attributed remaining (r :: reads) := by
  have hpos : 0 ≤ r.after := by omega
  rw [Attributed, if_pos hpos] at h
  obtain ⟨hreads, hsum⟩ := h
  rw [Attributed, if_pos hr]
  refine ⟨fun j r' hj => ?_, ?_⟩
  · cases j with
    | zero =>
        obtain rfl : r = r' := by simpa using hj
        refine ⟨by simp [hbefore, handedOut], ?_⟩
        omega
    | succ j =>
        rw [List.getElem?_cons_succ] at hj
        obtain ⟨hb, hrest⟩ := hreads j r' hj
        rw [List.take_succ_cons, handedOut_cons]
        omega
  · rw [handedOut_cons, capacity, List.map_cons, List.sum_cons]
    change _ = min remaining ((r.len + capacity reads : Nat) : Int)
    omega

theorem iovecReads_attributed (host : Host) (m : Mem) (addr : Word) {totalBytes : Int}
    (ht : 0 ≤ totalBytes) (k i : Nat) {remaining : Int} (hr : 0 ≤ remaining) (out : OutBuf) :
    Attributed remaining (iovecReads host m addr totalBytes k i remaining out) := by
  have hnil : ∀ left : Int, 0 ≤ left → Attributed left [] := fun left hleft => by
    rw [Attributed, if_pos hleft]
    simpa [handedOut, capacity] using hleft
  induction k generalizing i remaining out with
  | zero => exact hnil remaining hr
  | succ k ih =>
      rw [iovecReads]
      split
      · cases readElem m addr 16 i with
        | none => exact hnil remaining hr
        | some iov =>
            have hamount := showLen_of_nonneg ht hr (field iov 8 8)
            have hafter : (iovecRead totalBytes i remaining iov).after =
                remaining - showLen totalBytes remaining (field iov 8 8) := if_pos ht
            exact attributed_cons rfl hr hamount hafter (ih (i + 1) (by rw [hafter]; omega) _)
      · exact hnil remaining hr

theorem iovecReads_unlimited (host : Host) (m : Mem) (addr : Word) {totalBytes : Int}
    (ht : ¬0 ≤ totalBytes) (k i : Nat) (remaining : Int) (out : OutBuf) :
    ∀ r ∈ iovecReads host m addr totalBytes k i remaining out, r.amount = r.len := by
  induction k generalizing i remaining out with
  | zero => simp [iovecReads]
  | succ k ih =>
      rw [iovecReads]
      split
      · cases readElem m addr 16 i with
        | none => simp
        | some iov =>
            intro r hr
            rcases List.mem_cons.mp hr with rfl | hr
            · exact if_neg ht
            · exact ih _ _ _ r hr
      · simp

/-- `format_iovec_array` prints the iovecs it processes, and attributes to them what was
received, whatever their lengths. -/
theorem iovec_bytes_attributed (host : Host) (m : Mem) (addr : Word) (iovcnt : Nat)
    (totalBytes : Int) (out : OutBuf) :
    let start := out.snprintf (lit "[")
    let reads := iovecReads host m addr totalBytes
      (if iovcnt > arrayMax then arrayMax else iovcnt) 0 totalBytes start
    let listed := reads.foldl (fun out r => out.snprintf (r.text host m)) start
    formatIovecBuf host m addr iovcnt totalBytes out =
        (if addr = 0 then out.snprintf (lit "NULL")
        else (if iovcnt > arrayMax then listed.append (lit ", ...") else listed).append (lit "]")) ∧
      Attributed totalBytes reads := by
  refine ⟨?_, ?_⟩
  · rw [formatIovecBuf, formatArray, arrayLoop_iovecReads]
  · by_cases ht : 0 ≤ totalBytes
    · exact iovecReads_attributed host m addr ht _ 0 ht _
    · rw [Attributed, if_neg ht]
      exact iovecReads_unlimited host m addr ht _ 0 totalBytes _

end MiniStrace
