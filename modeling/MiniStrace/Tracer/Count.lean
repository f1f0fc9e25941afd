/-
  Tracer/Count.lean --- `active_count` and the end of the loop under `-f`.

  THE COUNT.  `active_count` goes up when a fork event is handled and a slot is found
  for the child, and down whenever a process is gone.  It therefore counts the live
  processes whose creation has been handled, as long as every event finds a slot and
  no child is gone before its own event.  Under that condition it is positive while a
  process is left: the oldest live process is nobody's unannounced child.

  WITHOUT THE CONDITION the loop stops early.  A child that is gone before its event is
  subtracted before it was added.
-/
import MiniStrace.Tracer.System

set_option autoImplicit false

namespace MiniStrace

open CLib

/-! ## Unannounced children -/

namespace Kernel

/-- Every process whose event is still to come is live, younger than its parent, and
owed one event only. -/
structure Ordered (k : Kernel) : Prop where
  live_nodup : k.live.Nodup
  children_nodup : (k.pending.map Prod.snd).Nodup
  older : ∀ p c, (p, c) ∈ k.pending → List.Sublist [p, c] k.live

/-- No process is gone before its parent's event. -/
def Announced (k : Kernel) (r : Report) : Prop :=
  r.kind = .gone → ∀ p, (p, r.stop.pid) ∉ k.pending

theorem ordered_init (root : Nat) : (init root).Ordered where
  live_nodup := List.nodup_singleton root
  children_nodup := List.nodup_nil
  older := fun _ _ h => absurd h List.not_mem_nil

variable {k k' : Kernel}

theorem Ordered.child_mem (h : k.Ordered) {c : Nat} (hc : c ∈ k.pending.map Prod.snd) :
    c ∈ k.live := by
  obtain ⟨⟨p, c'⟩, hm, rfl⟩ := List.mem_map.mp hc
  exact (h.older p c' hm).subset (by simp)

/-- The oldest live process is not an unannounced child. -/
theorem Ordered.pending_lt (h : k.Ordered) (hne : k.live ≠ []) :
    k.pending.length < k.live.length := by
  obtain ⟨x, xs, hx⟩ := List.exists_cons_of_ne_nil hne
  have hsub : k.pending.map Prod.snd ⊆ xs := by
    intro c hc
    obtain ⟨⟨p, c'⟩, hm, rfl⟩ := List.mem_map.mp hc
    have hold := h.older p c' hm
    rw [hx] at hold
    cases hold with
    | cons _ hs => exact hs.subset (by simp)
    | cons_cons _ hs => exact hs.subset (by simp)
  have hle := (h.children_nodup.subperm hsub).length_le
  rw [List.length_map] at hle
  rw [hx, List.length_cons]
  omega

theorem Ordered.create (h : k.Ordered) {p c : Nat} (hp : p ∈ k.live) (hc : c ∉ k.live)
    (inCall : Nat → Bool) : Ordered ⟨k.live ++ [c], k.pending ++ [(p, c)], inCall⟩ where
  live_nodup := by
    rw [← List.concat_eq_append]
    exact h.live_nodup.concat hc
  children_nodup := by
    rw [List.map_append, List.map_singleton, ← List.concat_eq_append]
    exact h.children_nodup.concat fun hm => hc (h.child_mem hm)
  older := by
    intro q d hm
    rcases List.mem_append.mp hm with hm | hm
    · exact (h.older q d hm).trans (List.sublist_append_left _ _)
    · rw [List.mem_singleton, Prod.mk.injEq] at hm
      obtain ⟨rfl, rfl⟩ := hm
      exact List.Sublist.append (List.singleton_sublist.mpr hp) (List.Sublist.refl [d])

theorem Ordered.forkEvent (h : k.Ordered) (e : Nat × Nat) :
    Ordered { k with pending := k.pending.erase e } where
  live_nodup := h.live_nodup
  children_nodup :=
    h.children_nodup.sublist ((List.erase_sublist (a := e) (l := k.pending)).map Prod.snd)
  older := fun p c hm => h.older p c (List.mem_of_mem_erase hm)

theorem Ordered.gone (h : k.Ordered) {q : Nat} (hparent : ∀ c, (q, c) ∉ k.pending)
    (hchild : ∀ p, (p, q) ∉ k.pending) (inCall : Nat → Bool) :
    Ordered ⟨k.live.erase q, k.pending, inCall⟩ where
  live_nodup := h.live_nodup.erase q
  children_nodup := h.children_nodup
  older := by
    intro p c hm
    have hp : p ≠ q := fun e => hparent c (e ▸ hm)
    have hc : c ≠ q := fun e => hchild p (e ▸ hm)
    have herase : [p, c].erase q = [p, c] :=
      List.erase_of_not_mem (by simp [hp.symm, hc.symm])
    rw [← herase]
    exact (h.older p c hm).erase q

/-- Every step keeps the order, provided no child is gone before its event. -/
theorem Ordered.step (h : k.Ordered) {r : Option Report} (hs : Step k r k')
    (hok : ∀ q, r = some q → k.Announced q) : k'.Ordered := by
  cases hs with
  | create hp hc => exact h.create hp hc _
  | forkEvent => exact h.forkEvent _
  | signal => exact h
  | syscall => exact ⟨h.live_nodup, h.children_nodup, h.older⟩
  | gone _ hparent => exact h.gone hparent (hok _ rfl rfl) _

end Kernel

/-! ## The count -/

section Count

variable {τ : Type}

/-- A fork event finds a slot for its child, and no process is gone before its parent's
event. -/
def CountedOk (sys : System τ) (r : Report) : Prop :=
  (r.kind = .forkEvent → ∀ c, r.stop.eventMsg = some c →
    c ∈ sys.tracer.tracees.keys ∨ sys.tracer.tracees.keys.length < maxTracees) ∧
  sys.kernel.Announced r

/-- The count and the kernel's view of it. -/
structure CountInv (sys : System τ) : Prop where
  ordered : sys.kernel.Ordered
  count : sys.tracer.left = none →
    sys.tracer.activeCount = sys.kernel.live.length - sys.kernel.pending.length
  ended : sys.tracer.left = some .counted → sys.kernel.live = []

theorem countInv_init (root : Nat) : CountInv (System.init root : System τ) where
  ordered := Kernel.ordered_init root
  count := fun _ => rfl
  ended := fun h => absurd h (by simp [System.init, Tracer.init])

/-- A counted fork event. -/
theorem handleForkEvent_count {st : Tracer τ} {s : Stop} {c : Nat} (hm : s.eventMsg = some c)
    (hroom : c ∈ st.tracees.keys ∨ st.tracees.keys.length < maxTracees) :
    (handleForkEvent st s).activeCount = st.activeCount + 1 ∧
      (handleForkEvent st s).left = st.left := by
  have hadd : st.tracees.addTracee c ≠ none := by
    intro hnone
    obtain ⟨hmem, hlen⟩ := SlotTable.add_eq_none_iff.mp hnone
    rcases hroom with h | h
    · exact hmem h
    · omega
  obtain ⟨t, ht⟩ := Option.ne_none_iff_exists'.mp hadd
  simp [handleForkEvent, hm, ht]

variable [Zero τ] [Add τ] {cfg : Config τ}

theorem handleSyscallStop_count (cfg : Config τ) (st : Tracer τ) (s : Stop) :
    (handleSyscallStop cfg st s).activeCount = st.activeCount ∧
      (handleSyscallStop cfg st s).left = st.left := by
  unfold handleSyscallStop
  split
  · exact ⟨rfl, rfl⟩
  · dsimp only
    split
    · unfold handleRegs
      split <;> exact ⟨rfl, rfl⟩
    · exact ⟨rfl, rfl⟩

/-- Every report that satisfies the condition keeps the count. -/
theorem countInv_report (hf : cfg.opts.followForks = true) {sys : System τ} (hi : CountInv sys)
    (hleft : sys.tracer.left = none) {r : Report} {k : Kernel}
    (hk : Kernel.Step sys.kernel (some r) k) (hok : CountedOk sys r) :
    CountInv ⟨k, loopBody cfg sys.tracer (.report r.stop), sys.log ++ [r]⟩ := by
  have hord : k.Ordered := hi.ordered.step hk fun q hq => by
    injection hq with hq
    exact hq ▸ hok.2
  have hcount := hi.count hleft
  cases hk with
  | @forkEvent s c hmem hs he hmsg =>
      have hstep := handleForkEvent_count hmsg (hok.1 rfl c hmsg)
      refine ⟨hord, fun _ => ?_, fun h => ?_⟩ <;>
        simp only [loopBody, handleReport_forkEvent cfg hs he, hf, if_true] at *
      · have hpos : 0 < sys.kernel.pending.length := List.length_pos_of_mem hmem
        rw [hstep.1, hcount, List.length_erase_of_mem hmem]
        omega
      · rw [hstep.2, hleft] at h
        exact absurd h (by decide)
  | signal hmem hs he hc =>
      refine ⟨hord, fun _ => ?_, fun h => ?_⟩ <;>
        simp only [loopBody, handleReport_signal cfg hs he hc] at *
      · exact hcount
      · exact hi.ended h
  | @syscall s hmem hs hc =>
      have hstep := handleSyscallStop_count cfg sys.tracer s
      refine ⟨hord, fun _ => ?_, fun h => ?_⟩ <;>
        simp only [loopBody, handleReport_syscall cfg hs hc] at *
      · rw [hstep.1, hcount]
      · rw [hstep.2] at h
        exact hi.ended h
  | @gone s hmem hparent hgone =>
      refine ⟨hord, fun _ => ?_, fun h => ?_⟩ <;>
        simp only [loopBody, handleReport_gone cfg hgone, handleGone] at *
      · have hpos : 0 < sys.kernel.live.length := List.length_pos_of_mem hmem
        rw [hcount, List.length_erase_of_mem hmem]
        omega
      · -- the count is not positive, so there is no oldest live process left
        by_contra hne
        have hlt := hord.pending_lt hne
        have hpos : 0 < sys.kernel.live.length := List.length_pos_of_mem hmem
        simp only [List.length_erase_of_mem hmem] at hlt
        rw [if_neg (by omega)] at h
        exact absurd h (by decide)

theorem countInv_step (hf : cfg.opts.followForks = true) (sys : System τ) (r : Option Report)
    (sys' : System τ) (hi : CountInv sys) (hs : System.Step cfg sys r sys')
    (hok : ∀ q, r = some q → CountedOk sys q) : CountInv sys' := by
  cases hs with
  | silent hk =>
      have hord := hi.ordered.step hk fun q hq => absurd hq (by simp)
      cases hk with
      | create hp hc =>
          refine ⟨hord, fun h => ?_, fun h => ?_⟩
          · simp only [hi.count h, List.length_append, List.length_singleton]
            omega
          · rw [hi.ended h] at hp
            exact absurd hp List.not_mem_nil
  | report hleft hk => exact countInv_report hf hi hleft hk (hok _ rfl)
  | interrupted hleft => exact hi
  | noChild hleft hlive => exact ⟨hi.ordered, fun h => absurd h (by simp [loopBody]), fun _ => hlive⟩

/-- Under `-f` the loop is left through the count only when every process that was
created has been reported as gone, in every run in which fork events find a slot and
no process is gone before its parent's event. -/
theorem loop_stops_when_all_gone (cfg : Config τ) (hf : cfg.opts.followForks = true) (root : Nat)
    (sys : System τ) (h : System.Reachable cfg CountedOk root sys)
    (hleft : sys.tracer.left = some .counted) : sys.kernel.live = [] :=
  (h.induct (countInv_init root) (countInv_step hf)).ended hleft

/-- Process 1 creates process 2; the fork event, the end of 2 and the end of 1 are
reported in this order, and the loop is left when both are gone. -/
theorem loop_stops_after_both :
    ∃ sys, System.Reachable (Config.plain followOptions) CountedOk 1 sys ∧
      sys.tracer.left = some .counted ∧ sys.kernel.live = [] := by
  have h₀ : System.Reachable (Config.plain followOptions) CountedOk 1 (.init 1) := .refl
  have h₁ := h₀.create (p := 1) (c := 2) (by decide) (by decide)
  have hroom : (SlotTable.keys (Tracer.init 1 : Tracer Nat).tracees).length < maxTracees := by
    rw [keys_init]
    decide
  have h₂ := h₁.report (r := ⟨Stop.fork 1 2, .forkEvent⟩) rfl
    (.forkEvent (c := 2) (by decide) (by decide) (by decide) rfl)
    ⟨fun _ _ _ => Or.inr hroom, fun h => absurd h (by decide)⟩
  have h₃ := h₂.report (r := ⟨Stop.plain 2 0, .gone⟩) rfl
    (.gone (by decide) (fun _ => List.not_mem_nil) (by decide))
    ⟨fun h => absurd h (by decide), fun _ _ => List.not_mem_nil⟩
  have h₄ := h₃.report (r := ⟨Stop.plain 1 0, .gone⟩) rfl
    (.gone (by decide) (fun _ => List.not_mem_nil) (by decide))
    ⟨fun h => absurd h (by decide), fun _ _ => List.not_mem_nil⟩
  exact ⟨_, h₄, rfl, loop_stops_when_all_gone _ rfl 1 _ h₄ rfl⟩

/-- Process 1 creates process 2, and 2 is gone before the event is reported: the loop
is left while 1 is still running. -/
theorem loop_stops_early :
    ∃ sys, System.Reachable (Config.plain followOptions) (fun _ _ => True) 1 sys ∧
      sys.tracer.left = some .counted ∧ sys.kernel.live = [1] := by
  have h₀ : System.Reachable (Config.plain followOptions) (fun _ _ => True) 1 (.init 1) := .refl
  have h₁ := h₀.create (p := 1) (c := 2) (by decide) (by decide)
  have h₂ := h₁.report (r := ⟨Stop.plain 2 0, .gone⟩) rfl
    (.gone (by decide) (fun c => by simp [System.init, Kernel.init, Stop.plain]) (by decide)) trivial
  exact ⟨_, h₂, rfl, rfl⟩

end Count

end MiniStrace
