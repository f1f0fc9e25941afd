/-
  Exit/Inputs.lean --- caller-populated arguments of a deferred call.

  THE QUESTION.  A deferred call is printed after the kernel has written its outputs,
  and its inputs are read at that time too.  They are shown as the caller supplied them
  unless the kernel wrote over a byte that is shown.

  WHEN THAT HAPPENS.  `KernelWrites` is the set of bytes of the output arguments and
  `Lookup.showsByte` the bytes of an input its text depends on, every one of them: a
  change of a single one shows (`inputText_visible`), a change elsewhere does not
  (`inputText_congr`).  So the two sets have to be disjoint, and `nanosleep(&ts, &ts)`
  is shown wrongly.
-/
import MiniStrace.Exit.Slots

set_option autoImplicit false

namespace MiniStrace

open CLib OutBuf

/-- The lookups of caller-populated arguments that are read from memory and appear in
deferred calls. -/
def callerPopulated : List Lookup := [.stringArg, .timespecInArg, .sigactionNewArg, .rlimitInArg]

/-- The number of bytes behind an output argument, where it is the same in every
call. -/
def Lookup.outputSize : Lookup → Option Nat
  | .waitStatusArg => some 4
  | .statBufArg => some 144
  | .sigactionOldArg => some 32
  | .timespecOutArg => some 16
  | .rusageArg => some 144
  | .rlimitOutArg => some 16
  | .statxBufArg => some 256
  | _ => none

/-- The byte at `a` belongs to an output argument of the call.  An output whose size
depends on the call may reach anywhere; no call has such an output next to an input
of `callerPopulated`. -/
def KernelWrites (name : String) (args : Args) (a : Word) : Prop :=
  ∃ l ∈ outputLadder, ∃ i p, l.assigns name i = true ∧ args i ≠ 0 ∧
    (∀ size, l.outputSize = some size → p < size) ∧ a = args i + BitVec.ofNat 64 p

/-- The offsets of the bytes that the text of an input depends on.  `sa_restorer` is
not shown. -/
def Lookup.showsByte (host : Host) (l : Lookup) (p : Nat) : Prop :=
  match l with
  | .stringArg => p < shownString host
  | .sigactionNewArg => p < 16 ∨ 24 ≤ p ∧ p < 32
  | _ => p < 16

/-- The text of an input. -/
def inputText (host : Host) (m : Mem) (l : Lookup) (addr : Word) : Text :=
  match l with
  | .stringArg => stringText host m addr
  | .sigactionNewArg =>
      structText m addr 32 fun sa => cut strArgBufLen (sigactionText host sa)
  | .rlimitInArg => structText m addr 16 fun lim => cut strArgBufLen (rlimitText lim)
  | _ => structText m addr 16 fun ts => cut strArgBufLen (timespecText ts)

theorem mem_callerPopulated {l : Lookup} : l ∈ callerPopulated ↔
    l = .stringArg ∨ l = .timespecInArg ∨ l = .sigactionNewArg ∨ l = .rlimitInArg := by
  simp [callerPopulated]

theorem decodeInput_str {l : Lookup} (hl : l ∈ callerPopulated) (host : Host) (t : Tracee)
    (showFdPaths : Bool) (name : String) (args : Args) (i : Nat) :
    (decodeInput host t showFdPaths name args l i (new strArgBufLen host.junk)).str =
      inputText host t.mem l (args i) := by
  rcases mem_callerPopulated.mp hl with rfl | rfl | rfl | rfl
  · exact readChildString_str _ _ _ _
  · exact formatTimespec_str _ _ _
  · exact formatSigaction_str _ _ _ _
  · exact formatRlimit_str _ _ _ _

/-! ## Bytes that do not show -/

/-- The text of an input depends on the bytes it shows and on no others. -/
theorem inputText_congr {host : Host} {l : Lookup} (hl : l ∈ callerPopulated) {m m' : Mem}
    {addr : Word} (hmap : m.SameMap m')
    (hb : addr ≠ 0 → ∀ p, l.showsByte host p → m.byteAt addr p = m'.byteAt addr p) :
    inputText host m l addr = inputText host m' l addr := by
  -- all sixteen bytes of a timespec or an rlimit are shown
  have hall : ∀ text : Text → Text, ∀ raw raw' : Text, raw.length = 16 → raw'.length = 16 →
      (∀ p, p < 16 → p < 16 → raw.getD p 0 = raw'.getD p 0) → text raw = text raw' := by
    intro text raw raw' h h' heq
    refine congrArg text (List.ext_getElem (h.trans h'.symm) fun p h₁ h₂ => ?_)
    have := heq p (by omega) (by omega)
    rwa [List.getD_eq_getElem _ _ h₁, List.getD_eq_getElem _ _ h₂] at this
  rcases mem_callerPopulated.mp hl with rfl | rfl | rfl | rfl <;>
    simp only [inputText, Lookup.showsByte] at hb ⊢
  · exact stringText_congr hmap hb
  · exact structText_congr hmap (hall _) hb
  · refine structText_congr hmap (fun raw raw' h h' heq => ?_) hb
    have hlen := h.trans h'.symm
    have e₁ : field raw 0 8 = field raw' 0 8 :=
      field_congr hlen fun p _ _ => heq p (Or.inl (by omega)) (by omega)
    have e₂ : field raw 8 8 = field raw' 8 8 :=
      field_congr hlen fun p _ _ => heq p (Or.inl (by omega)) (by omega)
    have e₃ : field raw 24 8 = field raw' 24 8 :=
      field_congr hlen fun p _ _ => heq p (Or.inr (by omega)) (by omega)
    simp only [sigactionText, e₁, e₂, e₃]
  · exact structText_congr hmap (hall _) hb

/-! ## Bytes that show -/

/-- A struct of zeros with one byte set. -/
def oneByte (size p : Nat) : Text := (List.replicate size 0).set p 1

theorem timespec_visible : ∀ p < 16,
    cut strArgBufLen (timespecText (List.replicate 16 0)) ≠
      cut strArgBufLen (timespecText (oneByte 16 p)) := by
  with_unfolding_all decide

theorem rlimit_visible : ∀ p < 16,
    cut strArgBufLen (rlimitText (List.replicate 16 0)) ≠
      cut strArgBufLen (rlimitText (oneByte 16 p)) := by
  with_unfolding_all decide

/-- The text of a disposition up to its mask. -/
def sigactionHead (handler : Nat) (flags : Word) : Text :=
  lit "\x7bsa_handler=" ++ handlerText handler ++
    (lit ", sa_flags=" ++ cut 256 (flagsText "0" sigactionFlagTable flags)) ++ lit ", sa_mask="

theorem sigactionText_eq (host : Host) (sa : Text) :
    sigactionText host sa = sigactionHead (field sa 0 8) (BitVec.ofNat 64 (field sa 8 8)) ++
      (cut 512 (sigsetText host (field sa 24 8)) ++ lit "\x7d") := by
  simp only [sigactionText, sigactionHead, List.append_assoc]

theorem cut_sigsetText_zero (host : Host) : cut 512 (sigsetText host 0) = lit "[]" := by
  rw [sigsetText, sigsetItems_zero]
  with_unfolding_all decide

/-- The handler and the flags show. -/
theorem sigactionHead_visible : ∀ p < 16,
    field (oneByte 32 p) 24 8 = 0 ∧
      cut strArgBufLen (sigactionHead 0 0 ++ (lit "[]" ++ lit "\x7d")) ≠
        cut strArgBufLen (sigactionHead (field (oneByte 32 p) 0 8)
          (BitVec.ofNat 64 (field (oneByte 32 p) 8 8)) ++ (lit "[]" ++ lit "\x7d")) := by
  with_unfolding_all decide

/-- A set with a signal in it starts with that signal where the empty one is closed. -/
theorem cut_sigsetText_head (host : Host) {mask : Nat}
    (h : ∃ sig ∈ List.range' 1 64, mask.testBit (sig - 1) = true) :
    ∃ c rest, cut 512 (sigsetText host mask) = lit "[" ++ [c] ++ rest ∧ c ≠ 0 ∧ c ≠ 0x5d := by
  obtain ⟨sig, rest, hitems⟩ := sigsetItems_head host h
  obtain ⟨c, cs, hsig, hz, hne⟩ := sigText_head host sig
  have hopen : (∀ b ∈ lit "[", b ≠ 0) ∧ (lit "[").length = 1 := by decide +kernel
  refine ⟨c, cut (512 - 1 - 1) (cs ++ rest ++ lit "]"), ?_, hz, hne⟩
  rw [sigsetText, hitems, hsig]
  rw [show lit "[" ++ (c :: cs ++ rest) ++ lit "]" = lit "[" ++ ([c] ++ (cs ++ rest ++ lit "]")) by
    simp]
  rw [cut_append hopen.1 (by rw [hopen.2]; decide), hopen.2, cut_append (by simpa using hz)
    (by simp), List.length_singleton, ← List.append_assoc (lit "[")]

/-- The mask shows. -/
theorem sigactionMask_visible (host : Host) {mask : Nat}
    (h : ∃ sig ∈ List.range' 1 64, mask.testBit (sig - 1) = true) :
    cut strArgBufLen (sigactionHead 0 0 ++ (lit "[]" ++ lit "\x7d")) ≠
      cut strArgBufLen (sigactionHead 0 0 ++ (cut 512 (sigsetText host mask) ++ lit "\x7d")) := by
  obtain ⟨c, rest, hset, hz, hne⟩ := cut_sigsetText_head host h
  have hhead : (∀ b ∈ sigactionHead 0 0 ++ lit "[", b ≠ 0) ∧
      (sigactionHead 0 0 ++ lit "[").length + 1 ≤ strArgBufLen - 1 ∧
      cut strArgBufLen (sigactionHead 0 0 ++ (lit "[]" ++ lit "\x7d")) =
        sigactionHead 0 0 ++ lit "[" ++ [0x5d] ++ lit "\x7d" := by
    decide +kernel
  rw [hset, hhead.2.2]
  rw [show sigactionHead 0 0 ++ (lit "[" ++ [c] ++ rest ++ lit "\x7d") =
    sigactionHead 0 0 ++ lit "[" ++ [c] ++ (rest ++ lit "\x7d") by simp only [List.append_assoc]]
  rw [cut_append ?_ (by rw [List.length_append]; exact hhead.2.1)]
  · intro heq
    have hpre := List.append_inj_left heq (by simp only [List.length_append, List.length_singleton])
    have hc := List.append_inj_right hpre rfl
    exact hne (List.singleton_inj.mp hc).symm
  · intro b hb
    rcases List.mem_append.mp hb with hb | hb
    · exact hhead.1 b hb
    · rw [List.mem_singleton.mp hb]
      exact hz

theorem sigaction_visible (host : Host) {p : Nat} (hp : p < 16 ∨ 24 ≤ p ∧ p < 32) :
    cut strArgBufLen (sigactionText host (List.replicate 32 0)) ≠
      cut strArgBufLen (sigactionText host (oneByte 32 p)) := by
  have hzero : field (List.replicate 32 0) 0 8 = 0 ∧ field (List.replicate 32 0) 8 8 = 0 ∧
      field (List.replicate 32 0) 24 8 = 0 := by with_unfolding_all decide
  rw [sigactionText_eq, sigactionText_eq, hzero.1, hzero.2.1, hzero.2.2, cut_sigsetText_zero]
  rcases hp with hp | ⟨hlo, hp⟩
  · obtain ⟨hmask, hne⟩ := sigactionHead_visible p hp
    rw [hmask, cut_sigsetText_zero]
    exact hne
  · have hfields : ∀ q < 32, 24 ≤ q → field (oneByte 32 q) 0 8 = 0 ∧
        field (oneByte 32 q) 8 8 = 0 ∧
        ∃ sig ∈ List.range' 1 64, (field (oneByte 32 q) 24 8).testBit (sig - 1) = true := by
      with_unfolding_all decide
    obtain ⟨h₁, h₂, h₃⟩ := hfields p hp hlo
    rw [h₁, h₂]
    exact sigactionMask_visible host h₃

/-- A NUL among the bytes of a string that are looked at ends it, and takes the
truncation marker away. -/
theorem string_visible (host : Host) {addr : Word} (haddr : addr ≠ 0) {k : Nat}
    (hk : k < shownString host) :
    stringText host (fun _ => some 0x61) addr ≠
      stringText host (Mem.poke (fun _ => some 0x61) (addr + BitVec.ofNat 64 k) 0) addr := by
  have hsize : strArgBufLen = 1024 := rfl
  have hcap : k < readCap host ∧ readCap host ≤ strArgBufLen :=
    ⟨lt_of_lt_of_le hk (min_le_right _ _), readCap_le host⟩
  obtain ⟨j, hj⟩ := @stringText_unterminated host (fun _ => some 0x61)
    (fun _ => rfl) _ haddr (by omega) (fun _ => (by decide : (0x61 : Byte) ≠ 0))
  have hplain : ∀ n, ∀ c ∈ Mem.bytes (fun _ => some 0x61) addr n, escape c = [c] := by
    intro n c hc
    rw [Mem.bytes_const] at hc
    rw [List.eq_of_mem_replicate hc]
    decide
  set m' := Mem.poke (fun _ => some 0x61) (addr + BitVec.ofNat 64 k) 0 with hm'
  have hbyte : ∀ i, i < k + 1 → m'.byteAt addr i = if i = k then 0 else 0x61 := fun i hi =>
    Mem.byteAt_poke _ addr (by omega) (by omega) 0
  have hk' : stringText host m' addr = quoteText strArgBufLen (m'.bytes addr k) false := by
    refine stringText_terminated (Mem.isSome_poke (fun _ => rfl) _ _) haddr hk ?_ fun i hi => ?_
    · rw [hbyte k (by omega), if_pos rfl]
    · rw [hbyte i (by omega), if_neg (by omega)]
      decide
  have hplain' : ∀ c ∈ m'.bytes addr k, escape c = [c] := by
    intro c hc
    obtain ⟨i, hi, rfl⟩ := List.mem_map.mp hc
    rw [List.mem_range] at hi
    rw [hbyte i (by omega), if_neg (by omega)]
    decide
  -- one text ends in a dot, the other in a quote
  intro heq
  rw [hj, hk', quoteText_plain (hplain j), quoteText_plain hplain', if_pos rfl,
    if_neg (by decide), List.append_nil] at heq
  have hlast := congrArg List.getLast? heq
  rw [show lit "..." = [0x2e, 0x2e] ++ [0x2e] by with_unfolding_all decide,
    show lit "\"" = [0x22] by with_unfolding_all decide, ← List.append_assoc, List.getLast?_concat,
    List.getLast?_concat] at hlast
  exact absurd hlast (by decide)

/-- Two memories of mapped zeros that differ in one byte of a struct. -/
theorem structText_visible {addr : Word} (haddr : addr ≠ 0) {size p : Nat} (hp : p < size)
    (hsize : size ≤ 2 ^ 64) {text : Text → Text}
    (hne : text (List.replicate size 0) ≠ text (oneByte size p)) :
    structText (fun _ => some 0) addr size text ≠
      structText (Mem.poke (fun _ => some 0) (addr + BitVec.ofNat 64 p) 1) addr size text := by
  rw [structText_mapped (fun _ => rfl) haddr,
    structText_mapped (Mem.isSome_poke (fun _ => rfl) _ _) haddr, Mem.bytes_poke _ _ hp hsize,
    Mem.bytes_const]
  exact hne

/-- Every byte an input shows can be seen to change. -/
theorem inputText_visible (host : Host) {l : Lookup} (hl : l ∈ callerPopulated) {addr : Word}
    (haddr : addr ≠ 0) {p : Nat} (hp : l.showsByte host p) :
    ∃ (d : Byte) (c : Byte), inputText host (fun _ => some d) l addr ≠
      inputText host (Mem.poke (fun _ => some d) (addr + BitVec.ofNat 64 p) c) l addr := by
  rcases mem_callerPopulated.mp hl with rfl | rfl | rfl | rfl <;>
    simp only [inputText, Lookup.showsByte] at hp ⊢
  · exact ⟨0x61, 0, string_visible host haddr hp⟩
  · exact ⟨0, 1, structText_visible haddr hp (by decide) (timespec_visible p hp)⟩
  · exact ⟨0, 1, structText_visible haddr (by omega) (by decide) (sigaction_visible host hp)⟩
  · exact ⟨0, 1, structText_visible haddr hp (by decide) (rlimit_visible p hp)⟩

/-! ## The condition -/

theorem callerPopulated_subset : ∀ l ∈ callerPopulated, l ∈ inputLadder := by decide

/-- The caller-populated arguments of a deferred call are shown as they were at the
entry-stop, whatever the kernel writes to its outputs, exactly when no byte shown of
one of them lies in an output argument. -/
theorem inputs_shown_as_supplied_iff (host : Host) (name : String) (hd : deferred name = true)
    (args : Args) :
    (∀ (t : Tracee) (m' : Mem) (showFdPaths : Bool) (ret : Int), t.mem.SameMap m' →
      (∀ a, t.mem a ≠ m' a → KernelWrites name args a) →
      ∀ l ∈ callerPopulated, ∀ i, l.assigns name i = true →
        exitArg host { t with mem := m' } showFdPaths name args (.ofName name) ret i =
          (decodeInput host t showFdPaths name args l i (new strArgBufLen host.junk)).str) ↔
    ∀ l ∈ callerPopulated, ∀ i, l.assigns name i = true → args i ≠ 0 →
      ∀ p, l.showsByte host p → ¬ KernelWrites name args (args i + BitVec.ofNat 64 p) := by
  have htext : ∀ (t : Tracee) (m' : Mem) (showFdPaths : Bool) (ret : Int), ∀ l ∈ callerPopulated,
      ∀ i, l.assigns name i = true →
        (exitArg host { t with mem := m' } showFdPaths name args (.ofName name) ret i =
          (decodeInput host t showFdPaths name args l i (new strArgBufLen host.junk)).str ↔
        inputText host m' l (args i) = inputText host t.mem l (args i)) := by
    intro t m' showFdPaths ret l hl i hi
    rw [exitArg_input hd (callerPopulated_subset l hl) hi, decodeInput_str hl, decodeInput_str hl]
  constructor
  · intro h l hl i hi haddr p hp hw
    obtain ⟨d, c, hne⟩ := inputText_visible host hl haddr hp
    refine hne ((htext ⟨0, fun _ => some d, fun _ => none⟩ _ false 0 l hl i hi).mp
      (h _ _ false 0 (fun a => ?_) (fun a ha => ?_) l hl i hi)).symm
    · simp only [Mem.poke, Function.update_apply]
      split <;> rfl
    · -- only the byte that was set differs
      simp only [Mem.poke, Function.update_apply] at ha
      split at ha
      · rename_i heq
        rw [heq]
        exact hw
      · exact absurd rfl ha
  · intro h t m' showFdPaths ret hmap hdiff l hl i hi
    refine (htext t m' showFdPaths ret l hl i hi).mpr (inputText_congr hl hmap ?_).symm
    intro haddr p hp
    have hsame : t.mem (args i + BitVec.ofNat 64 p) = m' (args i + BitVec.ofNat 64 p) := by
      by_contra hne
      exact h l hl i hi haddr p hp (hdiff _ hne)
    rw [Mem.byteAt, Mem.byteAt, hsame]

/-- `nanosleep` with two different timespecs. -/
def nanosleepArgs : Args := fun i => if i = 0 then 0x1000 else 0x2000

theorem nanosleep_assigns : ∀ l ∈ callerPopulated ++ outputLadder, ∀ i < 6,
    l.assigns "nanosleep" i = true → l = .timespecInArg ∧ i = 0 ∨ l = .timespecOutArg ∧ i = 1 := by
  with_unfolding_all decide

/-- The request is shown as it was supplied. -/
theorem nanosleep_apart_shown : deferred "nanosleep" = true ∧
    ∀ (t : Tracee) (m' : Mem), t.mem.SameMap m' →
      (∀ a, t.mem a ≠ m' a → KernelWrites "nanosleep" nanosleepArgs a) →
      exitArg default { t with mem := m' } false "nanosleep" nanosleepArgs (.ofName "nanosleep") 0 0 =
        (decodeInput default t false "nanosleep" nanosleepArgs .timespecInArg 0
          (new strArgBufLen (default : Host).junk)).str := by
  have hd : deferred "nanosleep" = true := by with_unfolding_all decide
  refine ⟨hd, fun t m' hmap hdiff => ?_⟩
  refine (inputs_shown_as_supplied_iff default "nanosleep" hd nanosleepArgs).mpr ?_ t m' false 0 hmap
    hdiff .timespecInArg (by decide) 0 (by with_unfolding_all decide)
  intro l hl i hi _ p hp
  rintro ⟨o, ho, j, q, hj, _, hq, heq⟩
  have hin := nanosleep_assigns l (List.mem_append_left _ hl) i (Lookup.lt_of_assigns hi) hi
  have hout := nanosleep_assigns o (List.mem_append_right _ ho) j (Lookup.lt_of_assigns hj) hj
  rcases hin with ⟨rfl, rfl⟩ | ⟨rfl, rfl⟩
  · rcases hout with ⟨rfl, rfl⟩ | ⟨rfl, rfl⟩
    · exact absurd ho (by decide)
    · -- sixteen bytes from 0x1000 on and sixteen from 0x2000 on
      have hp' : p < 16 := hp
      have hq' : q < 16 := hq 16 rfl
      have hnat := congrArg BitVec.toNat heq
      have h₁ : (0x1000 : Word).toNat = 0x1000 := rfl
      have h₂ : (0x2000 : Word).toNat = 0x2000 := rfl
      simp only [nanosleepArgs, if_true, if_neg (by decide : ¬ (1 : Nat) = 0), BitVec.toNat_add,
        BitVec.toNat_ofNat] at hnat
      omega
  · exact absurd hl (by decide)

/-- `nanosleep(&ts, &ts)`: the request was no time at all, the kernel wrote a second,
and the second is shown as the request. -/
theorem nanosleep_aliased_misshown :
    let args : Args := fun _ => 0x1000
    let t : Tracee := ⟨1, fun _ => some 0, fun _ => none⟩
    let m' : Mem := Mem.poke t.mem 0x1000 1
    t.mem.SameMap m' ∧ (∀ a, t.mem a ≠ m' a → KernelWrites "nanosleep" args a) ∧
      (decodeInput default t false "nanosleep" args .timespecInArg 0
        (new strArgBufLen (default : Host).junk)).str = lit "\x7btv_sec=0, tv_nsec=0\x7d" ∧
      exitArg default { t with mem := m' } false "nanosleep" args (.ofName "nanosleep") (-4) 0 =
        lit "\x7btv_sec=1, tv_nsec=0\x7d" := by
  intro args t m'
  refine ⟨fun a => ?_, fun a ha => ?_, by decide +kernel, by decide +kernel⟩
  · simp only [m', Mem.poke, Function.update_apply]
    split <;> rfl
  · simp only [m', Mem.poke, Function.update_apply] at ha
    split at ha
    · rename_i heq
      exact ⟨.timespecOutArg, by decide, 1, 0, by with_unfolding_all decide, by decide, fun size hsize => by
        cases hsize; decide, heq⟩
    · exact absurd rfl ha

end MiniStrace
