/-
  Exit/Outputs.lean --- kernel-populated arguments are decoded when the kernel wrote
  them.

  THE CONTRACT.  `KernelContract` says for each kind of output when the kernel writes
  it, as a function of the return value; for the remaining time of an interrupted
  sleep only that it needs an error.  Poll's array and readv's iovecs are the caller's
  own and are not part of it.

  THE GATES.  Each branch of the exit-stop's ladder has a gate of its own, or its
  decoder tests the return value, or neither does.  Three of them do not fit: a wait
  status and the rusage of `wait4` are decoded when it returns 0, and a timespec is
  always decoded.
-/
import MiniStrace.Exit.Slots

set_option autoImplicit false

namespace MiniStrace

open CLib OutBuf

/-- When the kernel writes the outputs of the call `name` that returned `ret`. -/
structure KernelContract (name : String) (ret : Int) (wrote : Lookup → Bool) : Prop where
  data : wrote .readArg = true ↔ 0 < ret
  result : ∀ l ∈ [Lookup.acceptArg, .statBufArg, .statxBufArg, .rlimitOutArg, .sigactionOldArg,
    .msghdrRecvArg], wrote l = true ↔ 0 ≤ ret
  counted : ∀ l ∈ [Lookup.epollEventsArg, .getdentsBufArg, .waitStatusArg],
    wrote l = true ↔ 0 < ret
  rusage : wrote .rusageArg = true ↔ if name = "wait4" then 0 < ret else 0 ≤ ret
  time : name = "clock_gettime" → (wrote .timespecOutArg = true ↔ ret = 0)
  remaining : name ≠ "clock_gettime" → wrote .timespecOutArg = true → ret < 0

/-- The outputs the contract speaks of. -/
def contractOutputs : List Lookup :=
  [.readArg, .acceptArg, .statBufArg, .statxBufArg, .rlimitOutArg, .sigactionOldArg,
   .msghdrRecvArg, .epollEventsArg, .getdentsBufArg, .waitStatusArg, .rusageArg, .timespecOutArg]

/-- The text is the pointer itself. -/
def IsRawPointer (addr : Word) (text : Text) : Prop :=
  text = hex0x addr.toNat ∨ addr = 0 ∧ text = lit "NULL"

theorem contractOutputs_subset : ∀ l ∈ contractOutputs, l ∈ outputLadder := by decide

/-! ## Plain values -/

/-- No output slot is a descriptor. -/
theorem isFdArg_output {l : Lookup} (hl : l ∈ outputLadder) {name : String} {i : Nat}
    (h : l.assigns name i = true) (showFdPaths : Bool) : isFdArg showFdPaths name i = false := by
  refine isFdArg_of_assigns ?_ h showFdPaths
  rintro rfl
  exact absurd hl (by decide)

section Outputs

variable {host : Host} {t : Tracee} {showFdPaths : Bool} {name : String} {args : Args} {ret : Int}
  {l : Lookup} {i : Nat}

/-- An output that does not pass its gate is printed as its pointer. -/
theorem exitArg_gated_raw (hl : l ∈ outputLadder) (h : l.assigns name i = true)
    (hg : l.gate ret = false) :
    IsRawPointer (args i) (exitArg host t showFdPaths name args (.ofName name) ret i) := by
  rw [exitArg_gated hl h hg, formatPlain, formatHexOrFdArg, hexOrFdText, isFdArg_output hl h]
  exact Or.inl (str_hex0x _ _)

/-- The decoders that count in the return value print the pointer when it is not
positive. -/
theorem exitArg_counted_raw (hl : l = .epollEventsArg ∨ l = .getdentsBufArg)
    (h : l.assigns name i = true) (hret : ¬ 0 < ret) :
    IsRawPointer (args i) (exitArg host t showFdPaths name args (.ofName name) ret i) := by
  rcases hl with rfl | rfl
  · rw [exitArg_output (by decide) h rfl]
    simp only [decodeOutput, formatEpollEventsBuf, if_pos (not_lt.mp hret)]
    exact Or.inl (str_hex0x _ _)
  · rw [exitArg_output (by decide) h rfl]
    simp only [decodeOutput, formatGetdentsBuf, if_pos (not_lt.mp hret)]
    exact Or.inl (str_hex0x _ _)

/-- Null pointers are not dereferenced. -/
theorem exitArg_null_raw (hl : l = .waitStatusArg ∨ l = .rusageArg ∨ l = .timespecOutArg)
    (h : l.assigns name i = true) (h0 : args i = 0) :
    IsRawPointer (args i) (exitArg host t showFdPaths name args (.ofName name) ret i) := by
  have hmem : l ∈ outputLadder := by rcases hl with rfl | rfl | rfl <;> decide
  by_cases hg : l.gate ret = true
  · refine Or.inr ⟨h0, ?_⟩
    rw [exitArg_output hmem h hg]
    rcases hl with rfl | rfl | rfl <;>
      simp only [decodeOutput, formatWaitStatus, formatRusage, formatTimespec, formatStruct, h0,
        if_true]
    · exact str_null _
    · exact str_null _
    · exact str_null _
  · exact exitArg_gated_raw hmem h (by simpa using hg)

/-- In memory of mapped zeros a decoded wait status, rusage or timespec starts with a
bracket. -/
theorem exitArg_zeros (hl : l = .waitStatusArg ∨ l = .rusageArg ∨ l = .timespecOutArg)
    (h : l.assigns name i = true) (hg : l.gate ret = true) (haddr : args i ≠ 0) :
    ¬ IsRawPointer (args i) (exitArg default ⟨0, fun _ => some 0, fun _ => none⟩ false name args
      (.ofName name) ret i) := by
  have hmem : l ∈ outputLadder := by rcases hl with rfl | rfl | rfl <;> decide
  have hhead : ∀ n, (hex0x n).head? = some 0x30 := by
    intro n
    rw [hex0x, show lit "0x" = [0x30, 0x78] by with_unfolding_all decide]
    rfl
  rintro (htext | ⟨h0, -⟩)
  · have hh := congrArg List.head? htext
    rw [exitArg_output hmem h hg, hhead] at hh
    rcases hl with rfl | rfl | rfl <;> simp only [decodeOutput] at hh
    · have hp : Peekable (fun _ => some 0) (args i) := fun _ _ => rfl
      simp only [formatWaitStatus, if_neg haddr, peekData, if_pos hp, Mem.bytes_const] at hh
      revert hh
      decide +kernel
    · rw [formatRusage_str, structText_mapped (fun _ => rfl) haddr, Mem.bytes_const] at hh
      revert hh
      with_unfolding_all decide
    · rw [formatTimespec_str, structText_mapped (fun _ => rfl) haddr, Mem.bytes_const] at hh
      revert hh
      with_unfolding_all decide
  · exact haddr h0

end Outputs

/-! ## The condition -/

/-- The output in slot `i` has a gate that fits the contract: no wait status and no
rusage of `wait4` when it returned 0, and no timespec that was not written. -/
def GateFits (name : String) (ret : Int) (wrote : Lookup → Bool) (i : Nat) : Prop :=
  (Lookup.waitStatusArg.assigns name i = true → ret ≠ 0) ∧
  (Lookup.rusageArg.assigns name i = true → name = "wait4" → ret ≠ 0) ∧
  (Lookup.timespecOutArg.assigns name i = true → wrote .timespecOutArg = true)

/-- The outputs whose gate is the contract. -/
def gatedOutputs : List Lookup :=
  [.readArg, .acceptArg, .statBufArg, .statxBufArg, .rlimitOutArg, .sigactionOldArg,
   .msghdrRecvArg]

theorem KernelContract.wrote_iff_gate {name : String} {ret : Int} {wrote : Lookup → Bool}
    (hk : KernelContract name ret wrote) {l : Lookup} (hl : l ∈ gatedOutputs) :
    wrote l = true ↔ l.gate ret = true := by
  rcases List.mem_cons.mp hl with rfl | hl
  · simp [hk.data, Lookup.gate]
  · rw [hk.result l hl]
    simp only [List.mem_cons, List.not_mem_nil, or_false] at hl
    rcases hl with rfl | rfl | rfl | rfl | rfl | rfl <;> simp [Lookup.gate]

/-- Outputs the kernel did not write are printed as pointers, in every memory, exactly
when each output with a pointer has a gate that fits. -/
theorem outputs_decoded_only_when_written_iff (name : String) (args : Args) (ret : Int)
    (wrote : Lookup → Bool) (hk : KernelContract name ret wrote) :
    (∀ (host : Host) (t : Tracee) (showFdPaths : Bool), ∀ l ∈ contractOutputs, ∀ i,
      l.assigns name i = true → wrote l = false →
        IsRawPointer (args i) (exitArg host t showFdPaths name args (.ofName name) ret i)) ↔
    ∀ i, args i ≠ 0 → GateFits name ret wrote i := by
  constructor
  · intro h i haddr
    have hbad : ∀ l, (l = .waitStatusArg ∨ l = .rusageArg ∨ l = .timespecOutArg) →
        l.assigns name i = true → wrote l = false → l.gate ret = false := by
      intro l hl hi hw
      by_contra hg
      have hmem : l ∈ contractOutputs := by rcases hl with rfl | rfl | rfl <;> decide
      exact exitArg_zeros hl hi (by simpa using hg) haddr (h default _ false l hmem i hi hw)
    refine ⟨fun hi h0 => ?_, fun hi hname h0 => ?_, fun hi => ?_⟩
    · have hw : wrote .waitStatusArg = false := by
        rw [← Bool.not_eq_true, hk.counted _ (by decide)]
        omega
      have hg := hbad _ (Or.inl rfl) hi hw
      rw [h0] at hg
      exact absurd hg (by decide)
    · have hw : wrote .rusageArg = false := by
        rw [← Bool.not_eq_true, hk.rusage, if_pos hname]
        omega
      have hg := hbad _ (Or.inr (Or.inl rfl)) hi hw
      rw [h0] at hg
      exact absurd hg (by decide)
    · by_contra hw
      exact absurd (hbad _ (Or.inr (Or.inr rfl)) hi (by simpa using hw)) (by simp [Lookup.gate])
  · intro h host t showFdPaths l hl i hi hw
    have hmem := contractOutputs_subset l hl
    rcases (by decide : ∀ l ∈ contractOutputs, l ∈ gatedOutputs ∨
      (l = .epollEventsArg ∨ l = .getdentsBufArg) ∨
      (l = .waitStatusArg ∨ l = .rusageArg ∨ l = .timespecOutArg)) l hl with hg | hc | hu
    · refine exitArg_gated_raw hmem hi ?_
      rw [← Bool.not_eq_true, ← hk.wrote_iff_gate hg, hw]
      decide
    · refine exitArg_counted_raw hc hi ?_
      rw [← hk.counted l (by rcases hc with rfl | rfl <;> decide), hw]
      decide
    · -- the three that do not fit: a null pointer, or a gate that is closed after all
      by_cases haddr : args i = 0
      · exact exitArg_null_raw hu hi haddr
      · obtain ⟨hwait, hrusage, htime⟩ := h i haddr
        refine exitArg_gated_raw hmem hi ?_
        rcases hu with rfl | rfl | rfl
        · have hret := hwait hi
          have hpos := hk.counted .waitStatusArg (by decide)
          rw [hw] at hpos
          simp only [Lookup.gate, decide_eq_false_iff_not]
          simp only [Bool.false_eq_true, false_iff] at hpos
          omega
        · have hpos := hk.rusage
          rw [hw] at hpos
          simp only [Lookup.gate, decide_eq_false_iff_not]
          simp only [Bool.false_eq_true, false_iff] at hpos
          split at hpos
          · have hret := hrusage hi ‹_›
            omega
          · exact hpos
        · rw [htime hi] at hw
          exact absurd hw (by decide)

/-- A `wait4` that failed wrote nothing, and its status is printed as a pointer. -/
theorem wait4_failed_raw : KernelContract "wait4" (-10) (fun _ => false) ∧
    ∀ (host : Host) (t : Tracee), IsRawPointer 0x1000
      (exitArg host t false "wait4" (fun _ => 0x1000) (.ofName "wait4") (-10) 1) := by
  have hk : KernelContract "wait4" (-10) (fun _ => false) :=
    ⟨by decide, by decide, by decide, by decide, by decide, by decide⟩
  refine ⟨hk, fun host t => ?_⟩
  refine (outputs_decoded_only_when_written_iff "wait4" (fun _ => 0x1000) (-10) (fun _ => false)
    hk).mpr (fun i _ => ⟨fun _ => by decide, fun _ _ => by decide, fun hi => ?_⟩) host t false
    .waitStatusArg (by decide) 1 (by with_unfolding_all decide) rfl
  exact absurd (Lookup.mem_names_of_assigns hi) (by with_unfolding_all decide)

/-- `wait4` with `WNOHANG` returns 0 and writes nothing; what was in memory before is
shown as the status of a child. -/
theorem wait4_nohang_decoded :
    let wrote : Lookup → Bool := fun l => l ∈ gatedOutputs && l != .readArg
    let t : Tracee := ⟨1, fun _ => some 0, fun _ => none⟩
    KernelContract "wait4" 0 wrote ∧ Lookup.waitStatusArg.assigns "wait4" 1 = true ∧
      wrote .waitStatusArg = false ∧
      exitArg default t false "wait4" (fun _ => 0x1000) (.ofName "wait4") 0 1 =
        lit "[\x7bWIFEXITED(s) && WEXITSTATUS(s) == 0\x7d]" :=
  ⟨⟨by decide, by decide, by decide, by decide, by decide, by decide⟩, by with_unfolding_all decide,
    by decide, by decide +kernel⟩

end MiniStrace
