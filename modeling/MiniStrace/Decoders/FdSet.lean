/-
  Decoders/FdSet.lean --- the descriptor sets of `select` (`format_fdset_buf`).

  THE SET.  A bitmap of 128 bytes, of which the call looks at the first `nfds` bits and the
  decoder at no more than 1024.  `fdsOf` are its members in increasing order.

  THE LIST.  The loop goes over the descriptors one by one, prints the first eight members
  and stops at the ninth.  `fdsetReads` are the bytes of the copied bitmap it looks at on
  its way; on a bitmap that agrees there it does the same.
-/
import MiniStrace.Decoders.Arrays

set_option autoImplicit false

namespace MiniStrace

open CLib OutBuf

/-- Bit `fd` of the bitmap at `addr`. -/
def fdBit (m : Mem) (addr : Word) (fd : Nat) : Bool :=
  (m.byteAt addr (fd / 8)).toNat.testBit (fd % 8)

/-- The members of the set, in increasing order. -/
def fdsOf (m : Mem) (addr : Word) (nfds : Nat) : List Nat :=
  (List.range (min nfds 1024)).filter (fdBit m addr)

/-! ## The loop -/

/-- The bytes of the bitmap the loop looks at. -/
def fdsetReads (bits : Text) : List Nat → Nat → List Nat
  | [], _ => []
  | fd :: fds, count =>
      fd / 8 ::
        if (bits.getD (fd / 8) 0).toNat.testBit (fd % 8) then
          if count ≥ 8 then [] else fdsetReads bits fds (count + 1)
        else fdsetReads bits fds count

theorem fdsetReads_lt (bits : Text) (fds : List Nat) {nbits : Nat} (h : ∀ fd ∈ fds, fd < nbits)
    (count : Nat) : ∀ i ∈ fdsetReads bits fds count, i < (nbits + 7) / 8 := by
  induction fds generalizing count with
  | nil => simp [fdsetReads]
  | cons fd fds ih =>
      have hfds : ∀ fd' ∈ fds, fd' < nbits := fun fd' h' => h fd' (List.mem_cons_of_mem fd h')
      have hfd := h fd List.mem_cons_self
      intro i hi
      rw [fdsetReads] at hi
      rcases List.mem_cons.mp hi with rfl | hi
      · omega
      · split at hi
        · split at hi
          · simp at hi
          · exact ih hfds _ i hi
        · exact ih hfds _ i hi

/-- No other byte matters to the loop. -/
theorem fdsetLoop_congr {bits bits' : Text} {fds : List Nat} {count : Nat}
    (h : ∀ i ∈ fdsetReads bits fds count, bits'.getD i 0 = bits.getD i 0) (out : OutBuf) :
    fdsetLoop bits' fds count out = fdsetLoop bits fds count out := by
  induction fds generalizing count out with
  | nil => rfl
  | cons fd fds ih =>
      rw [fdsetReads] at h
      obtain ⟨hfd, hrest⟩ := List.forall_mem_cons.mp h
      rw [fdsetLoop, fdsetLoop, hfd]
      split
      · rename_i hbit
        rw [if_pos hbit] at hrest
        split
        · rfl
        · rename_i hmore
          rw [if_neg hmore] at hrest
          exact ih hrest _
      · rename_i hbit
        rw [if_neg hbit] at hrest
        exact ih hrest _

/-- The loop prints the members up to the eighth, and dots for a ninth. -/
theorem fdsetItems_eq (bits : Text) (fds : List Nat) {count : Nat} (hcount : count ≤ 8) :
    fdsetItems bits fds count =
      let members := fds.filter fun fd => (bits.getD (fd / 8) 0).toNat.testBit (fd % 8)
      sepItems (decide (count = 0)) ((members.take (8 - count)).map dec) ++
        if 8 < count + members.length then lit ", ..." else [] := by
  induction fds generalizing count with
  | nil => simp [fdsetItems, sepItems, not_lt.mpr hcount]
  | cons fd fds ih =>
      rw [fdsetItems, List.filter_cons]
      by_cases hbit : (bits.getD (fd / 8) 0).toNat.testBit (fd % 8) = true
      · rw [if_pos hbit, if_pos hbit]
        by_cases hfull : count ≥ 8
        · obtain rfl : count = 8 := by omega
          simp [sepItems]
        · obtain ⟨left, hleft⟩ : ∃ left, 8 - count = left + 1 := ⟨7 - count, by omega⟩
          have hnext : 8 - (count + 1) = left := by omega
          rw [if_neg hfull, ih (by omega)]
          simp only [hleft, hnext, List.take_succ_cons, List.map_cons, sepItems_cons,
            List.append_assoc, decide_eq_true_eq, List.length_cons, Nat.add_eq_zero_iff,
            one_ne_zero, and_false, decide_false, Nat.add_assoc, Nat.add_comm 1]
      · rw [if_neg hbit, if_neg hbit]
        exact ih hcount

/-! ## The text -/

theorem length_sepItems_le {items : List Text} {n : Nat} (h : ∀ item ∈ items, item.length ≤ n)
    (first : Bool) : (sepItems first items).length ≤ items.length * (n + 2) := by
  have hsep : (lit ", ").length = 2 := by with_unfolding_all decide
  induction items generalizing first with
  | nil => simp [sepItems]
  | cons item items ih =>
      have hitem := h item List.mem_cons_self
      have hrest := ih (fun item' h' => h item' (List.mem_cons_of_mem item h')) false
      have hfirst : (if first then [] else lit ", ").length ≤ 2 := by
        split
        · exact Nat.zero_le _
        · exact le_of_eq hsep
      rw [sepItems_cons, List.length_append, List.length_append, List.length_cons, Nat.add_mul]
      omega

/-- What a readable bitmap is printed as. -/
def membersText (fds : List Nat) : Text :=
  lit "[" ++ (lit ", ").intercalate ((fds.take 8).map dec) ++
    (if 8 < fds.length then lit ", ..." else []) ++ lit "]"

theorem fdsetText_eq {m : Mem} {addr : Word} (ha : addr ≠ 0) (nfds : Nat)
    (hmap : ∀ i < 128, (m (addr + BitVec.ofNat 64 i)).isSome) :
    fdsetText m addr nfds = membersText (fdsOf m addr nfds) := by
  have hbits : (if nfds > 1024 then 1024 else nfds) = min nfds 1024 := by split <;> omega
  have hwords : WordsMapped m addr ((min nfds 1024 + 7) / 8) := fun p hp => hmap p (by omega)
  have hfilter : (List.range (min nfds 1024)).filter (fun fd =>
      ((m.bytes addr ((min nfds 1024 + 7) / 8)).getD (fd / 8) 0).toNat.testBit (fd % 8)) =
      fdsOf m addr nfds :=
    List.filter_congr fun fd hfd => by
      have hlt := List.mem_range.mp hfd
      rw [m.getD_bytes addr (by omega), fdBit]
  rw [fdsetText, if_neg ha]
  dsimp only
  rw [hbits, readChildRaw_whole hwords, if_neg (by simp), fdsetItems_eq _ _ (Nat.zero_le 8)]
  dsimp only
  rw [hfilter, membersText, ← sepItems_true]
  simp

theorem membersText_fits {fds : List Nat} (h : ∀ fd ∈ fds, fd < 1024) :
    (membersText fds).length < strArgBufLen := by
  have hlit : (lit "[").length = 1 ∧ (lit ", ...").length = 5 ∧ (lit "]").length = 1 := by
    with_unfolding_all decide
  have hitems : (sepItems true ((fds.take 8).map dec)).length ≤ ((fds.take 8).map dec).length * 6 :=
    length_sepItems_le (fun item hitem => by
      obtain ⟨fd, hfd, rfl⟩ := List.mem_map.mp hitem
      have hlt := h fd (List.mem_of_mem_take hfd)
      exact length_dec_le (by decide) (by omega)) true
  have hmore : (if 8 < fds.length then lit ", ..." else []).length ≤ 5 := by
    split
    · exact le_of_eq hlit.2.1
    · exact Nat.zero_le _
  have hmax : strArgBufLen = 1024 := rfl
  rw [List.length_map, List.length_take] at hitems
  rw [membersText, ← sepItems_true]
  simp only [List.length_append, hlit]
  omega

/-- A readable bitmap is printed as the list of its first eight members, with dots when
there are more, and the loop looks at no byte that was not copied: the bytes that decide
what it does are all among those. -/
theorem fdset_members_shown (m : Mem) (addr : Word) (nfds : Nat) (init : Nat → Byte)
    (ha : addr ≠ 0) (hmap : ∀ i < 128, (m (addr + BitVec.ofNat 64 i)).isSome) :
    (formatFdsetBuf m addr nfds (new strArgBufLen init)).str = membersText (fdsOf m addr nfds) ∧
      (∀ i ∈ fdsetReads (readChildRaw m addr ((min nfds 1024 + 7) / 8))
          (List.range (min nfds 1024)) 0, i < (min nfds 1024 + 7) / 8) ∧
      ∀ (bits' : Text) (out : OutBuf),
        (∀ i ∈ fdsetReads (readChildRaw m addr ((min nfds 1024 + 7) / 8))
          (List.range (min nfds 1024)) 0,
            bits'.getD i 0 = (readChildRaw m addr ((min nfds 1024 + 7) / 8)).getD i 0) →
          fdsetLoop bits' (List.range (min nfds 1024)) 0 out =
            fdsetLoop (readChildRaw m addr ((min nfds 1024 + 7) / 8))
              (List.range (min nfds 1024)) 0 out := by
  have hplain := fdsetText_plain m addr nfds
  have hfits : (membersText (fdsOf m addr nfds)).length < strArgBufLen :=
    membersText_fits fun fd hfd => by
      have hlt := List.mem_range.mp (List.mem_of_mem_filter hfd)
      omega
  refine ⟨?_, fdsetReads_lt _ _ (fun fd hfd => List.mem_range.mp hfd) 0,
    fun _ out h => fdsetLoop_congr h out⟩
  rw [(formatFdsetBuf_fills m addr nfds).str_eq_cut (by decide) strArgBufLen_lt (by decide)
    hplain.ne_nil, cut_of_lt (fun c hc => hplain.clean.ne_zero hc)
    (by rw [fdsetText_eq ha nfds hmap]; exact hfits), fdsetText_eq ha nfds hmap]

/-- Descriptors 0 to 9 are in the set. -/
theorem fdset_members_shown_ten :
    (∀ i < 128, ((fun _ => some 0xff : Mem) (0x1000 + BitVec.ofNat 64 i)).isSome) ∧
      (formatFdsetBuf (fun _ => some 0xff) 0x1000 10 (new strArgBufLen fun _ => 0)).str =
        lit "[0, 1, 2, 3, 4, 5, 6, 7, ...]" := by
  have hmap : ∀ i < 128, ((fun _ => some 0xff : Mem) (0x1000 + BitVec.ofNat 64 i)).isSome :=
    fun _ _ => rfl
  refine ⟨hmap, (fdset_members_shown _ 0x1000 10 _ (by decide) hmap).1.trans ?_⟩
  with_unfolding_all decide

end MiniStrace
