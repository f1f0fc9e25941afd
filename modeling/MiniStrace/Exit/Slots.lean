/-
  Exit/Slots.lean --- the argument slots of a call that is printed at its exit-stop.

  A slot some lookup assigns is filled by that lookup's decoder, except that an output
  slot whose gate the return value does not pass is printed as a plain value.  The table
  of descriptors, which is asked beside the ladder, names none of these slots but those of
  directory descriptors.
-/
import MiniStrace.Render
import MiniStrace.Routing.Consistency
import MiniStrace.Decoders.StructText

set_option autoImplicit false

namespace MiniStrace

open CLib OutBuf

theorem not_mem_outputLadder {l : Lookup} (h : l ∈ inputLadder) : l ∉ outputLadder :=
  (by decide : ∀ l ∈ inputLadder, l ∉ outputLadder) l h

theorem not_mem_entryLadder {l : Lookup} (h : l ∈ outputLadder) : l ∉ entryLadder :=
  (by decide : ∀ l ∈ outputLadder, l ∉ entryLadder) l h

/-- A call with an output slot is deferred. -/
theorem deferred_of_output {l : Lookup} {name : String} {i : Nat} (hl : l ∈ outputLadder)
    (h : l.assigns name i = true) : deferred name = true := by
  by_contra hd
  have hasked := asked_of_assigns h
  rw [asked, if_neg hd, decide_eq_true_eq] at hasked
  exact not_mem_entryLadder hl hasked

theorem exitDispatch_input {l : Lookup} {name : String} {i : Nat} (hd : deferred name = true)
    (hl : l ∈ inputLadder) (h : l.assigns name i = true) (ret : Int) :
    exitDispatch (.ofName name) name ret i = some l := by
  have hdisp := dispatch_of_assigns h
  rw [if_pos hd] at hdisp
  exact hdisp ret fun ho => absurd ho (not_mem_outputLadder hl)

theorem exitDispatch_output {l : Lookup} {name : String} {i : Nat} (hl : l ∈ outputLadder)
    (h : l.assigns name i = true) {ret : Int} (hg : l.gate ret = true) :
    exitDispatch (.ofName name) name ret i = some l := by
  have hdisp := dispatch_of_assigns h
  rw [if_pos (deferred_of_output hl h)] at hdisp
  exact hdisp ret fun _ => hg

theorem exitDispatch_gated {l : Lookup} {name : String} {i : Nat} (hl : l ∈ outputLadder)
    (h : l.assigns name i = true) {ret : Int} (hg : l.gate ret = false) :
    exitDispatch (.ofName name) name ret i = none := by
  have hnone : inputLadder.find? (·.assigns name i) = none := by
    rw [List.find?_eq_none]
    intro l' hl' h'
    rw [assigns_unique h h'] at hl'
    exact not_mem_outputLadder hl' hl
  unfold exitDispatch
  rw [hnone]
  refine List.find?_eq_none.mpr fun l' hl' h' => ?_
  rw [Bool.and_eq_true, claims_ofName hl'] at h'
  rw [assigns_unique h h'.1, hg] at h'
  exact absurd h'.2 (by decide)

/-- A descriptor is sent to no decoder but that of directory descriptors. -/
theorem fd_slots_plain : ∀ l ∈ Lookup.all, l ≠ .dirfdArg → ∀ name ∈ l.table.names,
    (l.ask name).slots &&& fdArgMask name = 0 := by
  decide +kernel

theorem isFdArg_of_assigns {l : Lookup} (hl : l ≠ .dirfdArg) {name : String} {i : Nat}
    (h : l.assigns name i = true) (showFdPaths : Bool) : isFdArg showFdPaths name i = false := by
  have hbit := congrArg (·.testBit i)
    (fd_slots_plain l (Lookup.mem_all l) hl name (Lookup.mem_names_of_assigns h))
  simp only [Nat.testBit_land, Lookup.testBit_slots, h, Bool.true_and, Nat.zero_testBit] at hbit
  unfold isFdArg
  split
  · exact hbit
  · exact Nat.zero_testBit i

section Slots

variable {host : Host} {t : Tracee} {showFdPaths : Bool} {name : String} {args : Args} {ret : Int}
  {l : Lookup} {i : Nat}

/-- At the exit-stop a caller-populated slot is decoded as at the entry-stop. -/
theorem exitArg_input (hd : deferred name = true) (hl : l ∈ inputLadder)
    (h : l.assigns name i = true) :
    exitArg host t showFdPaths name args (.ofName name) ret i =
      (decodeInput host t showFdPaths name args l i (new strArgBufLen host.junk)).str := by
  unfold exitArg
  rw [exitDispatch_input hd hl h]
  have hnot := not_mem_outputLadder hl
  cases l <;> first | exact absurd (by decide) hnot | rfl

theorem exitArg_output (hl : l ∈ outputLadder) (h : l.assigns name i = true)
    (hg : l.gate ret = true) :
    exitArg host t showFdPaths name args (.ofName name) ret i =
      (decodeOutput host t showFdPaths name args (.ofName name) ret l i
        (new strArgBufLen host.junk)).str := by
  unfold exitArg
  rw [exitDispatch_output hl h hg]

theorem exitArg_gated (hl : l ∈ outputLadder) (h : l.assigns name i = true)
    (hg : l.gate ret = false) :
    exitArg host t showFdPaths name args (.ofName name) ret i =
      (formatPlain t showFdPaths name args i (new strArgBufLen host.junk)).str := by
  unfold exitArg
  rw [exitDispatch_gated hl h hg]

end Slots

end MiniStrace
