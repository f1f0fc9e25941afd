/-
  Routing/Consistency.lean --- the routing tables, the two dispatch ladders, the
  deferral condition and the argument counts agree.

  WHY A TABLE CHECK IS A PROOF HERE.  The statement is about every string.  A name
  no table mentions is assigned nothing, so only the names that occur in some table
  are left, and for these the agreement is evaluated.  Slots are bounded first, from
  the values in the tables alone; the return value only matters through its sign.
-/
import MiniStrace.Routing.Dispatch

set_option autoImplicit false

namespace MiniStrace

namespace Lookup

/-- Every lookup. -/
def all : List Lookup :=
  [.stringArg, .dirfdArg, .atFlagsArg, .unlinkatFlagsArg, .faccessatFlagsArg, .argvArg,
   .openFlagsArg, .protFlagsArg, .mapFlagsArg, .mountFlagsArg, .socketDomainArg, .socketTypeArg,
   .sockoptLevelArg, .sockoptOptnameArg, .fdsetArg, .msgFlagsArg, .fileModeArg, .openModeArg,
   .renameat2FlagsArg, .mremapFlagsArg, .memfdFlagsArg, .eventfdFlagsArg, .wait4OptionsArg,
   .waitidIdtypeArg, .waitidOptionsArg, .schedPolicyArg, .rusageWhoArg, .rlimitInArg,
   .rlimitOutArg, .rlimitResourceArg, .pipe2FlagsArg, .getrandomFlagsArg, .flockOpArg,
   .madviseAdviceArg, .futexOpArg, .prctlOptionArg, .prctlNameArg, .signalArg, .lseekWhenceArg,
   .fcntlCmdArg, .sigprocmaskHowArg, .accessModeArg, .clockidArg, .waitStatusArg, .rusageArg,
   .epollOpArg, .epollEventArg, .epollEventsArg, .statBufArg, .statxMaskArg, .statxBufArg,
   .getdentsBufArg, .cloneFlagsArg, .clone3ArgsArg, .ioctlRequestArg, .msghdrSendArg,
   .msghdrRecvArg, .sigactionNewArg, .sigactionOldArg, .timespecInArg, .timespecOutArg,
   .bufferArg, .iovecWriteArg, .sockaddrArg, .acceptArg, .pollfdsArg, .readArg, .iovecReadArg]

theorem mem_all (l : Lookup) : l ∈ all := by
  cases l <;> decide

end Lookup

/-- The lookups that assign some slot of `name`, each with the mask of its slots. -/
def claimants (name : String) : List (Lookup × Nat) :=
  Lookup.all.filterMap fun l =>
    let slots := (l.ask name).slots
    if slots = 0 then none else some (l, slots)

/-- The ladder `run_tracer` uses for `name` asks `l`. -/
def asked (l : Lookup) (name : String) : Bool :=
  if deferred name then l ∈ inputLadder || l ∈ outputLadder else l ∈ entryLadder

/-- The check of one name: no slot is claimed twice, the right ladder asks every
claimant, and every slot and sibling is one that is printed. -/
def nameOk (name : String) : Bool :=
  (claimants name).Pairwise (fun c d => c.2 &&& d.2 = 0) &&
    (claimants name).all fun c =>
      asked c.1 name && (List.range 6).all fun i =>
        !c.2.testBit i ||
          ((c.1.sibling name i).all (fun s => 0 ≤ s && s < 6) && i < printedArgs name)

/-- The names that occur in some table. -/
def routedNames : List String := Lookup.all.flatMap (·.table.names)

theorem routedNames_ok : routedNames.all nameOk = true := by
  decide +kernel

theorem nameOk_of_assigns {l : Lookup} {name : String} {i : Nat}
    (h : l.assigns name i = true) : nameOk name = true := by
  refine List.all_eq_true.mp routedNames_ok name ?_
  exact List.mem_flatMap.mpr ⟨l, Lookup.mem_all l, Lookup.mem_names_of_assigns h⟩

theorem mem_claimants {l : Lookup} {name : String} {i : Nat} (h : l.assigns name i = true) :
    (l, (l.ask name).slots) ∈ claimants name := by
  have hne : (l.ask name).slots ≠ 0 := by
    intro h0
    rw [← Lookup.testBit_slots, h0] at h
    simp at h
  exact List.mem_filterMap.mpr ⟨l, Lookup.mem_all l, by simp [hne]⟩

/-- The ladder the call takes asks every lookup that assigns a slot of it. -/
theorem asked_of_assigns {l : Lookup} {name : String} {i : Nat} (h : l.assigns name i = true) :
    asked l name = true := by
  have hok := nameOk_of_assigns h
  rw [nameOk, Bool.and_eq_true, List.all_eq_true] at hok
  exact (Bool.and_eq_true _ _ ▸ hok.2 _ (mem_claimants h)).1

/-- A slot is assigned by at most one lookup. -/
theorem assigns_unique {l l' : Lookup} {name : String} {i : Nat} (h : l.assigns name i = true)
    (h' : l'.assigns name i = true) : l' = l := by
  have hok := nameOk_of_assigns h
  rw [nameOk, Bool.and_eq_true, decide_eq_true_eq] at hok
  by_contra hne
  have hpair : (l.ask name).slots &&& (l'.ask name).slots = 0 := by
    have : Std.Symm fun c d : Lookup × Nat => c.2 &&& d.2 = 0 :=
      ⟨fun c d hcd => by rw [Nat.land_comm, hcd]⟩
    exact hok.1.forall (mem_claimants h) (mem_claimants h')
      (fun heq => hne (congrArg Prod.fst heq).symm)
  have hbit := congrArg (·.testBit i) hpair
  simp only [Nat.testBit_land, Lookup.testBit_slots, Nat.zero_testBit] at hbit
  simp [h, h'] at hbit

/-- The first element of a list that satisfies a predicate no other one does. -/
theorem find?_eq_of_unique {α : Type} {p : α → Bool} {xs : List α} {x : α} (hx : x ∈ xs)
    (hp : p x = true) (huniq : ∀ y ∈ xs, p y = true → y = x) : xs.find? p = some x := by
  cases hf : xs.find? p with
  | none => exact absurd hp (by simpa using List.find?_eq_none.mp hf x hx)
  | some y => rw [huniq y (List.mem_of_find?_eq_some hf) (List.find?_some hf)]

/-- A slot assigned by some lookup goes to that lookup's decoder. -/
theorem dispatch_of_assigns {l : Lookup} {name : String} {i : Nat}
    (h : l.assigns name i = true) :
    if deferred name then
      ∀ ret : Int, (l ∈ outputLadder → l.gate ret = true) →
        exitDispatch (Pending.ofName name) name ret i = some l
    else entryDispatch name i = some l := by
  have huniq : ∀ l' : Lookup, l'.assigns name i = true → l' = l :=
    fun l' h' => assigns_unique h h'
  have hasked := asked_of_assigns h
  unfold asked at hasked
  split
  · rename_i hd
    rw [if_pos hd, Bool.or_eq_true, decide_eq_true_eq, decide_eq_true_eq] at hasked
    intro ret hgate
    unfold exitDispatch
    rcases hasked with hin | hout
    · rw [find?_eq_of_unique hin h fun l' _ h' => huniq l' h']
    · -- an output slot is claimed by no caller-populated lookup
      have hnone : inputLadder.find? (·.assigns name i) = none := by
        rw [List.find?_eq_none]
        intro l' hl' h'
        have hl := huniq l' h'
        subst hl
        exact absurd hout ((by decide : ∀ l ∈ inputLadder, l ∉ outputLadder) l' hl')
      rw [hnone]
      refine find?_eq_of_unique hout ?_ ?_
      · rw [claims_ofName hout, h, hgate hout]
        rfl
      · intro l' hl' h'
        rw [Bool.and_eq_true, claims_ofName hl'] at h'
        exact huniq l' h'.1
  · rename_i hd
    rw [if_neg hd, decide_eq_true_eq] at hasked
    exact find?_eq_of_unique hasked h fun l' _ h' => huniq l' h'

/-- No routing entry is dead, ambiguous or hidden: a slot some lookup assigns is
assigned by that lookup alone, is dispatched to its decoder on the path the call
takes (an output slot whenever the return value passes its gate), and lies, like the
sibling slot its decoder reads, among the six arguments; the slot is one that
`print_call` prints. -/
theorem routing_consistent (name : String) (i : Nat) (l : Lookup)
    (h : l.assigns name i = true) :
    (∀ l' : Lookup, l'.assigns name i = true → l' = l) ∧
    (if deferred name then
      ∀ ret : Int, (l ∈ outputLadder → l.gate ret = true) →
        exitDispatch (Pending.ofName name) name ret i = some l
    else entryDispatch name i = some l) ∧
    i < 6 ∧ (∀ s, l.sibling name i = some s → 0 ≤ s ∧ s < 6) ∧ i < printedArgs name := by
  have hok := nameOk_of_assigns h
  rw [nameOk, Bool.and_eq_true, List.all_eq_true] at hok
  have hc := hok.2 _ (mem_claimants h)
  rw [Bool.and_eq_true, List.all_eq_true] at hc
  have hi := Lookup.lt_of_assigns h
  have hslot := hc.2 i (List.mem_range.mpr hi)
  have hbit : (l.ask name).slots.testBit i = true := by rw [Lookup.testBit_slots, h]
  rw [hbit] at hslot
  simp only [Bool.not_true, Bool.false_or, Bool.and_eq_true, decide_eq_true_eq] at hslot
  refine ⟨fun l' h' => assigns_unique h h', dispatch_of_assigns h, hi, ?_, hslot.2⟩
  intro s hs
  have := hslot.1
  rw [hs] at this
  simpa using this

/-- The buffer of `read`, printed at the exit-stop when something was read. -/
theorem routing_consistent_read :
    Lookup.readArg.assigns "read" 1 = true ∧
      exitDispatch (Pending.ofName "read") "read" 5 1 = some .readArg ∧ 1 < printedArgs "read" := by
  have h : Lookup.readArg.assigns "read" 1 = true := by with_unfolding_all decide
  obtain ⟨_, hd, _, _, hp⟩ := routing_consistent "read" 1 .readArg h
  rw [if_pos (by with_unfolding_all decide)] at hd
  exact ⟨h, hd 5 (fun _ => by decide), hp⟩

end MiniStrace
