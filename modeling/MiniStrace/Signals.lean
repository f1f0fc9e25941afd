/-
  Signals.lean --- the places where a signal is shown.

  CONVERSIONS.  A text is printed by conversions, and `%s` of a NULL pointer is undefined;
  the C library happens to print `(null)`.  The text alone does not say whether that
  happened, so the calls are modelled with their arguments, and `printed` is the text.

  NAMES.  `sigabbrev_np` has no name for a real-time signal.  `format_signal_arg` and
  `format_sigset_value` then print the number.  `format_wait_status` and the line for a
  signal about to be delivered do not look, and show all such signals alike.
-/
import MiniStrace.Decoders.CloneFlags
import MiniStrace.Decoders.StructText
import MiniStrace.Tracer.Step

set_option autoImplicit false

namespace MiniStrace

open CLib OutBuf

/-! ## Conversions -/

/-- A conversion of a format with its argument, or the characters between two of them. -/
inductive Conv where
  | chars (s : String)
  /-- `%s` -/
  | str (p : Option Text)
  /-- `%d` -/
  | int (z : Int)
  /-- `%x` -/
  | hex (n : Nat)
  deriving DecidableEq

def Conv.out : Conv → Text
  | chars s => lit s
  | str p => orNull p
  | int z => decInt z
  | hex n => CLib.hex n

/-- The text of one call, or of several in a row. -/
def printed (convs : List Conv) : Text := convs.flatMap Conv.out

/-- No `%s` is given NULL. -/
def NullFree (convs : List Conv) : Prop := Conv.str none ∉ convs

instance (convs : List Conv) : Decidable (NullFree convs) :=
  inferInstanceAs (Decidable (Conv.str none ∉ convs))

/-- A reader can tell the two apart, and neither rests on a NULL pointer. -/
def Told (convs convs' : List Conv) : Prop :=
  printed convs ≠ printed convs' ∧ NullFree convs ∧ NullFree convs'

instance (convs convs' : List Conv) : Decidable (Told convs convs') :=
  inferInstanceAs (Decidable (_ ∧ _))

theorem decInt_natCast (n : Nat) : decInt (n : Int) = dec n := by
  rw [decInt, if_neg (by omega), Int.natAbs_natCast]

/-- The names of the C library are words, and no two signals share one. -/
structure Host.DistinctNames (host : Host) : Prop where
  injective : ∀ sig sig' t, host.sigabbrev sig = some t → host.sigabbrev sig' = some t → sig = sig'
  word : ∀ sig t, host.sigabbrev sig = some t → 0x20 ∉ t

/-! ## Wait statuses -/

/-- The class of a wait status, with the exit code or the signal it carries. -/
inductive WaitStatus where
  | exited (code : Nat)
  | signaled (sig : Nat)
  | stopped (sig : Nat)
  | other
  deriving DecidableEq

def waitStatus (wstatus : BitVec 32) : WaitStatus :=
  if wIfExited wstatus.toNat then .exited (wExitStatus wstatus.toNat)
  else if wIfSignaled wstatus.toNat then .signaled (wTermSig wstatus.toNat)
  else if wIfStopped wstatus.toNat then .stopped (wExitStatus wstatus.toNat)
  else .other

/-- The call of `snprintf` for a status. -/
def waitStatusConvs (host : Host) (wstatus : BitVec 32) : List Conv :=
  match waitStatus wstatus with
  | .exited code => [.chars "[\x7bWIFEXITED(s) && WEXITSTATUS(s) == ", .int code, .chars "\x7d]"]
  | .signaled sig =>
      [.chars "[\x7bWIFSIGNALED(s) && WTERMSIG(s) == SIG", .str (host.sigabbrev sig),
        .chars "\x7d]"]
  | .stopped sig =>
      [.chars "[\x7bWIFSTOPPED(s) && WSTOPSIG(s) == SIG", .str (host.sigabbrev sig),
        .chars "\x7d]"]
  | .other => [.chars "[0x", .hex wstatus.toNat, .chars "]"]

/-- The signal that a status carries, if any, has a name. -/
def WaitStatus.Named (host : Host) : WaitStatus → Prop
  | signaled sig => (host.sigabbrev sig).isSome
  | stopped sig => (host.sigabbrev sig).isSome
  | _ => True

instance (host : Host) (s : WaitStatus) : Decidable (s.Named host) := by
  cases s <;> unfold WaitStatus.Named <;> infer_instance

theorem waitStatusText_eq (host : Host) (wstatus : BitVec 32) :
    waitStatusText host wstatus.toNat = printed (waitStatusConvs host wstatus) := by
  unfold waitStatusText waitStatusConvs waitStatus
  split_ifs <;> simp [printed, Conv.out, decInt_natCast]

/-- The status is the low half of the word at the address. -/
theorem formatWaitStatus_eq (host : Host) {m : Mem} {addr : Word} {word : Text} (haddr : addr ≠ 0)
    (hword : peekData m addr = some word) :
    formatWaitStatus host m addr =
      (·.snprintf (printed (waitStatusConvs host (BitVec.ofNat 32 (leNat word))))) := by
  funext out
  rw [formatWaitStatus, if_neg haddr, hword]
  dsimp only
  rw [← waitStatusText_eq, BitVec.toNat_ofNat]

theorem none_eq_iff (p : Option Text) : none = p ↔ p = none := eq_comm

theorem waitStatusConvs_nullFree (host : Host) (wstatus : BitVec 32) :
    NullFree (waitStatusConvs host wstatus) ↔ (waitStatus wstatus).Named host := by
  unfold waitStatusConvs NullFree WaitStatus.Named
  cases waitStatus wstatus with
  | exited code => simp
  | signaled sig => simp [none_eq_iff, Option.isSome_iff_ne_none]
  | stopped sig => simp [none_eq_iff, Option.isSome_iff_ne_none]
  | other => simp

/-- The names of two signals that have one determine the signals. -/
theorem Host.DistinctNames.orNull_inj {host : Host} (h : host.DistinctNames) {sig sig' : Int}
    (hsig : (host.sigabbrev sig).isSome) (hsig' : (host.sigabbrev sig').isSome)
    (heq : orNull (host.sigabbrev sig) = orNull (host.sigabbrev sig')) : sig = sig' := by
  obtain ⟨t, ht⟩ := Option.isSome_iff_exists.mp hsig
  obtain ⟨t', ht'⟩ := Option.isSome_iff_exists.mp hsig'
  rw [ht, ht'] at heq
  have htt : t = t' := heq
  exact h.injective sig sig' t ht (htt ▸ ht')

/-- How the texts of the four classes start. -/
def waitStatusLeads : List String :=
  ["[\x7bWIFEXITED(s) && WEXITSTATUS(s) == ", "[\x7bWIFSIGNALED(s) && WTERMSIG(s) == SIG",
    "[\x7bWIFSTOPPED(s) && WSTOPSIG(s) == SIG", "[0x"]

theorem waitStatusLeads_apart :
    ∀ a ∈ waitStatusLeads, ∀ b ∈ waitStatusLeads, a ≠ b → ¬lit a <+: lit b := by
  with_unfolding_all decide

/-- Statuses whose signals have names are printed alike only if they are alike. -/
theorem printed_waitStatus_inj {host : Host} (h : host.DistinctNames) {w w' : BitVec 32}
    (hw : (waitStatus w).Named host) (hw' : (waitStatus w').Named host)
    (heq : printed (waitStatusConvs host w) = printed (waitStatusConvs host w')) :
    waitStatus w = waitStatus w' := by
  have hlead : ∀ {a b : String} {r r' : Text}, a ∈ waitStatusLeads → b ∈ waitStatusLeads →
      a ≠ b → lit a ++ r ≠ lit b ++ r' := fun ha hb hab =>
    append_ne_append (waitStatusLeads_apart _ ha _ hb hab)
      (waitStatusLeads_apart _ hb _ ha (Ne.symm hab)) _ _
  unfold waitStatusConvs at heq
  simp only [printed] at heq
  cases hs : waitStatus w <;> cases hs' : waitStatus w' <;> rw [hs] at heq hw <;>
    rw [hs'] at heq hw' <;> simp only [List.flatMap_cons, Conv.out] at heq
  case exited.exited code code' =>
    rw [decInt_natCast, decInt_natCast] at heq
    rw [dec_injective (List.append_cancel_right (List.append_cancel_left heq))]
  case signaled.signaled sig sig' =>
    have hname := h.orNull_inj hw hw' (List.append_cancel_right (List.append_cancel_left heq))
    rw [Int.ofNat_inj.mp hname]
  case stopped.stopped sig sig' =>
    have hname := h.orNull_inj hw hw' (List.append_cancel_right (List.append_cancel_left heq))
    rw [Int.ofNat_inj.mp hname]
  all_goals
    exact absurd heq (hlead (by simp [waitStatusLeads]) (by simp [waitStatusLeads]) (by decide))

/-! ## Names and numbers -/

/-- `SIG` and the name, or the number where there is none. -/
def nameOrNumber (name : Option Text) (sig : Int) : List Conv :=
  match name with
  | some t => [.chars "SIG", .str (some t)]
  | none => [.int sig]

theorem nameOrNumber_nullFree (name : Option Text) (sig : Int) :
    NullFree (nameOrNumber name sig) := by
  cases name <;> simp [nameOrNumber, NullFree]

theorem printed_name (t : Text) (sig : Int) :
    printed (nameOrNumber (some t) sig) = lit "SIG" ++ t := by
  simp [printed, nameOrNumber, Conv.out, orNull]

theorem printed_number (sig : Int) : printed (nameOrNumber none sig) = decInt sig := by
  simp [printed, nameOrNumber, Conv.out]

/-- No number reads like a name. -/
theorem nameOrNumber_inj {host : Host} (h : host.DistinctNames) {name name' : Option Text}
    {sig sig' : Int} (hname : ∀ t, name = some t → host.sigabbrev sig = some t)
    (hname' : ∀ t, name' = some t → host.sigabbrev sig' = some t)
    (heq : printed (nameOrNumber name sig) = printed (nameOrNumber name' sig')) : sig = sig' := by
  have hnumber : ∀ (z : Int) (t : Text), lit "SIG" ++ t ≠ decInt z := by
    intro z t heq
    have hmem : (0x53 : Byte) ∈ lit "SIG" ++ t := by simp [lit_sig]
    exact not_mem_decInt (by decide) (heq ▸ hmem)
  cases name with
  | some t =>
      cases name' with
      | some t' =>
          rw [printed_name, printed_name] at heq
          have htt : t = t' := List.append_cancel_left heq
          exact h.injective sig sig' t (hname t rfl) (htt ▸ hname' t' rfl)
      | none =>
          rw [printed_name, printed_number] at heq
          exact absurd heq (hnumber _ _)
  | none =>
      cases name' with
      | some t' =>
          rw [printed_number, printed_name] at heq
          exact absurd heq.symm (hnumber _ _)
      | none =>
          rw [printed_number, printed_number] at heq
          exact decInt_injective heq

/-- The signal number an argument is taken for. -/
def signalArg (value : Word) : Int := signed 32 (value.toNat % 2 ^ 32)

/-- The call of `snprintf` in `format_signal_arg`. -/
def signalArgConvs (host : Host) (value : Word) : List Conv :=
  if signalArg value = 0 then [.chars "0"]
  else nameOrNumber (host.sigabbrev (signalArg value)) (signalArg value)

theorem signalArgText_eq (host : Host) (value : Word) :
    signalArgText host value = printed (signalArgConvs host value) := by
  unfold signalArgText signalArgConvs signalArg
  dsimp only
  split
  · simp [printed, Conv.out]
  · cases host.sigabbrev (signed 32 (value.toNat % 2 ^ 32)) with
    | some t => exact (printed_name t _).symm
    | none => exact (printed_number _).symm

/-- Signal 0 prints as a number too. -/
theorem printed_signalArg (host : Host) (value : Word) :
    ∃ name : Option Text, (∀ t, name = some t → host.sigabbrev (signalArg value) = some t) ∧
      printed (signalArgConvs host value) = printed (nameOrNumber name (signalArg value)) := by
  by_cases h0 : signalArg value = 0
  · refine ⟨none, by simp, ?_⟩
    rw [signalArgConvs, if_pos h0, h0]
    with_unfolding_all decide
  · refine ⟨host.sigabbrev (signalArg value), fun t ht => ht, ?_⟩
    rw [signalArgConvs, if_neg h0]

theorem signalArg_told {host : Host} (h : host.DistinctNames) {value value' : Word}
    (hne : signalArg value ≠ signalArg value') :
    Told (signalArgConvs host value) (signalArgConvs host value') := by
  have hnull : ∀ v, NullFree (signalArgConvs host v) := by
    intro v
    unfold signalArgConvs
    split
    · simp [NullFree]
    · exact nameOrNumber_nullFree _ _
  refine ⟨fun heq => hne ?_, hnull _, hnull _⟩
  obtain ⟨name, hname, htext⟩ := printed_signalArg host value
  obtain ⟨name', hname', htext'⟩ := printed_signalArg host value'
  rw [htext, htext'] at heq
  exact nameOrNumber_inj h hname hname' heq

/-! ## Signal sets -/

/-- The signals of a set among those still to look at. -/
def sigsetMembers (mask : Nat) (sigs : List Nat) : List Nat :=
  sigs.filter fun sig => mask.testBit (sig - 1)

/-- The calls of `snprintf` in the loop of `format_sigset_value`. -/
def sigsetLoopConvs (host : Host) (mask : Nat) : List Nat → Bool → List Conv
  | [], _ => []
  | sig :: sigs, first =>
      if mask.testBit (sig - 1) then
        .str (some (if first then [] else lit " ")) ::
          nameOrNumber (host.sigabbrev sig) sig ++ sigsetLoopConvs host mask sigs false
      else sigsetLoopConvs host mask sigs first

/-- The calls of `snprintf` in `format_sigset_value`. -/
def sigsetConvs (host : Host) (mask : Word) : List Conv :=
  .chars "[" :: sigsetLoopConvs host mask.toNat (List.range' 1 64) true ++ [.chars "]"]

theorem sigText_eq (host : Host) (sig : Nat) :
    sigText host sig = printed (nameOrNumber (host.sigabbrev sig) sig) := by
  unfold sigText
  cases host.sigabbrev sig with
  | some t => rw [printed_name]
  | none => rw [printed_number, decInt_natCast]

theorem printed_append (convs convs' : List Conv) :
    printed (convs ++ convs') = printed convs ++ printed convs' := List.flatMap_append

theorem sigsetItems_convs (host : Host) (mask : Nat) (sigs : List Nat) (first : Bool) :
    sigsetItems host mask sigs first = printed (sigsetLoopConvs host mask sigs first) := by
  induction sigs generalizing first with
  | nil => rfl
  | cons sig sigs ih =>
      rw [sigsetItems, sigsetLoopConvs]
      split
      · rw [printed_append, ← ih false, sigText_eq]
        rfl
      · exact ih first

theorem sigsetText_eq (host : Host) (mask : Word) :
    sigsetText host mask.toNat = printed (sigsetConvs host mask) := by
  rw [sigsetText, sigsetConvs, printed_append, sigsetItems_convs]
  simp [printed, Conv.out]

theorem sigsetLoopConvs_nullFree (host : Host) (mask : Nat) (sigs : List Nat) (first : Bool) :
    NullFree (sigsetLoopConvs host mask sigs first) := by
  induction sigs generalizing first with
  | nil => simp [sigsetLoopConvs, NullFree]
  | cons sig sigs ih =>
      rw [sigsetLoopConvs]
      split
      · have hname := nameOrNumber_nullFree (host.sigabbrev sig) sig
        have hrest := ih false
        simp only [NullFree, List.cons_append, List.mem_cons, List.mem_append, not_or] at *
        exact ⟨by simp, hname, hrest⟩
      · exact ih first

/-- The loop prints the members with a blank between any two. -/
theorem sigsetItems_eq (host : Host) (mask : Nat) (sigs : List Nat) :
    sigsetItems host mask sigs true =
      [0x20].intercalate ((sigsetMembers mask sigs).map (sigText host)) := by
  have hlit : lit " " = [0x20] := by with_unfolding_all decide
  have hrest : ∀ sigs, sigsetItems host mask sigs false =
      ((sigsetMembers mask sigs).map (sigText host)).flatMap fun p => 0x20 :: p := by
    intro sigs
    induction sigs with
    | nil => rfl
    | cons sig sigs ih =>
        rw [sigsetItems, sigsetMembers, List.filter_cons, ih]
        split
        · simp [hlit, sigsetMembers]
        · rfl
  induction sigs with
  | nil => rfl
  | cons sig sigs ih =>
      rw [sigsetItems, sigsetMembers, List.filter_cons]
      split
      · rw [hrest, List.map_cons, intercalate_byte_cons]
        rfl
      · exact ih

theorem sigText_word {host : Host} (h : host.DistinctNames) (sig : Nat) :
    (0x20 : Byte) ∉ sigText host sig := by
  have hlit : (0x20 : Byte) ∉ lit "SIG" := by with_unfolding_all decide
  unfold sigText
  cases hname : host.sigabbrev sig with
  | some t =>
      rw [List.mem_append, not_or]
      exact ⟨hlit, h.word sig t hname⟩
  | none => exact fun hm => absurd (mem_dec hm).1 (by decide)

theorem sigText_injective {host : Host} (h : host.DistinctNames) :
    Function.Injective (sigText host) := by
  intro sig sig' heq
  rw [sigText_eq, sigText_eq] at heq
  exact Int.ofNat_inj.mp (nameOrNumber_inj h (fun t ht => ht) (fun t ht => ht) heq)

/-- The text of a set determines its members. -/
theorem sigsetItems_inj {host : Host} (h : host.DistinctNames) {mask mask' : Nat} {sigs : List Nat}
    (heq : sigsetItems host mask sigs true = sigsetItems host mask' sigs true) :
    sigsetMembers mask sigs = sigsetMembers mask' sigs := by
  have hword : ∀ sigs : List Nat, ∀ t ∈ sigs.map (sigText host), (0x20 : Byte) ∉ t := by
    intro sigs t ht
    obtain ⟨sig, -, rfl⟩ := List.mem_map.mp ht
    exact sigText_word h sig
  -- an empty set has an empty list; no other has
  have hnil : ∀ sigs : List Nat, [0x20].intercalate (sigs.map (sigText host)) = [] ↔ sigs = [] := by
    intro sigs
    cases sigs with
    | nil => simp
    | cons sig sigs =>
        obtain ⟨c, rest, hc, -⟩ := sigText_head host sig
        rw [List.map_cons, intercalate_byte_cons, hc]
        simp
  rw [sigsetItems_eq, sigsetItems_eq] at heq
  by_cases hempty : sigsetMembers mask sigs = []
  · rw [hempty] at heq ⊢
    exact ((hnil _).mp heq.symm).symm
  · have hempty' : sigsetMembers mask' sigs ≠ [] := by
      intro h'
      rw [h'] at heq
      exact hempty ((hnil _).mp heq)
    refine List.map_injective_iff.mpr (sigText_injective h) ?_
    rw [← List.splitOn_intercalate 0x20 (hword _) (by simpa using hempty), heq,
      List.splitOn_intercalate 0x20 (hword _) (by simpa using hempty')]

/-- A word is determined by the signals in it. -/
theorem sigsetMembers_inj {mask mask' : Word}
    (h : sigsetMembers mask.toNat (List.range' 1 64) =
      sigsetMembers mask'.toNat (List.range' 1 64)) : mask = mask' := by
  have hbit : ∀ (m : Word) (i : Nat), i < 64 →
      (m.toNat.testBit i = true ↔ i + 1 ∈ sigsetMembers m.toNat (List.range' 1 64)) := by
    intro m i hi
    rw [sigsetMembers, List.mem_filter, List.mem_range'_1]
    simp only [Nat.add_sub_cancel]
    constructor
    · exact fun hb => ⟨by omega, hb⟩
    · exact fun hb => hb.2
  ext i hi
  rw [BitVec.getElem_eq_testBit_toNat, BitVec.getElem_eq_testBit_toNat, Bool.eq_iff_iff,
    hbit mask i hi, hbit mask' i hi, h]

theorem sigset_told {host : Host} (h : host.DistinctNames) {mask mask' : Word}
    (hne : mask ≠ mask') : Told (sigsetConvs host mask) (sigsetConvs host mask') := by
  have hnull : ∀ m, NullFree (sigsetConvs host m) := by
    intro m
    have hloop := sigsetLoopConvs_nullFree host m.toNat (List.range' 1 64) true
    simp only [NullFree, sigsetConvs, List.cons_append, List.mem_cons, List.mem_append,
      List.not_mem_nil, or_false, not_or] at *
    exact ⟨by simp, hloop, by simp⟩
  refine ⟨fun heq => hne (sigsetMembers_inj (sigsetItems_inj h ?_)), hnull _, hnull _⟩
  rw [← sigsetText_eq, ← sigsetText_eq, sigsetText, sigsetText] at heq
  exact List.append_cancel_left (List.append_cancel_right heq)

/-! ## Delivered signals -/

/-- The call of `fprintf` for a signal about to be delivered. -/
def signalLineConvs (host : Host) (opts : Options) (pid : Nat) (sig : Nat) : List Conv :=
  [.str (some (pidPrefix opts.followForks pid)), .chars "--- SIG", .str (host.sigabbrev sig),
    .chars " (", .str (host.sigdescr sig), .chars ") ---\n"]

theorem signalLine_eq (host : Host) (opts : Options) (pid sig : Nat) :
    signalLine host opts pid sig = printed (signalLineConvs host opts pid sig) := by
  simp [signalLine, signalLineConvs, printed, Conv.out, orNull]

theorem signalLine_nullFree (host : Host) (opts : Options) (pid sig : Nat) :
    NullFree (signalLineConvs host opts pid sig) ↔
      (host.sigabbrev sig).isSome ∧ (host.sigdescr sig).isSome := by
  simp [NullFree, signalLineConvs, none_eq_iff, Option.isSome_iff_ne_none]

/-- Nothing of the line before the name depends on the signal. -/
theorem pidPrefix_append_inj {followForks : Bool} {pid pid' : Nat} {r r' : Text}
    (h : pidPrefix followForks pid ++ (0x2d :: r) = pidPrefix followForks pid' ++ (0x2d :: r')) :
    r = r' := by
  have hclose : lit "] " = [0x5d, 0x20] := by with_unfolding_all decide
  unfold pidPrefix at h
  cases followForks with
  | false => exact (List.cons.inj h).2
  | true =>
      simp only [if_true, hclose, List.append_assoc, List.cons_append] at h
      obtain ⟨-, hr⟩ := dec_append_inj (by decide) (List.append_cancel_left h)
      simpa using hr

theorem printed_signalLine_inj {host : Host} (h : host.DistinctNames) {opts : Options}
    {pid pid' sig sig' : Nat} (hsig : (host.sigabbrev sig).isSome)
    (hsig' : (host.sigabbrev sig').isSome)
    (heq : signalLine host opts pid sig = signalLine host opts pid' sig') : sig = sig' := by
  have hlit : lit "--- SIG" = 0x2d :: lit "-- SIG" ∧ lit " (" = [0x20, 0x28] := by
    with_unfolding_all decide
  have hword : ∀ n : Nat, (host.sigabbrev n).isSome →
      (0x20 : Byte) ∉ orNull (host.sigabbrev n) := by
    intro n hn
    obtain ⟨t, ht⟩ := Option.isSome_iff_exists.mp hn
    rw [ht]
    exact h.word n t ht
  simp only [signalLine, hlit, List.append_assoc, List.cons_append] at heq
  have hrest := List.append_cancel_left (pidPrefix_append_inj heq)
  exact Int.ofNat_inj.mp
    (h.orNull_inj hsig hsig' (append_sep_inj (hword sig hsig) (hword sig' hsig') hrest).1)

/-- What the tracer adds to the trace at a stop for a signal. -/
theorem handleSignalStop_trace {τ : Type} [Zero τ] [Add τ] (cfg : Config τ) (st : Tracer τ)
    (s : Stop) :
    (handleSignalStop cfg st s).trace = st.trace ++
      if s.stopsig ≠ Stop.sigtrap ∧ s.stopsig ≠ 0 then
        [⟨s.pid, printed (signalLineConvs cfg.host cfg.opts s.pid s.stopsig)⟩]
      else [] := by
  unfold handleSignalStop
  by_cases htrap : s.stopsig ≠ Stop.sigtrap
  · simp [htrap, signalLine_eq]
  · simp [htrap]

/-! ## All places -/

/-- A signal is identified wherever it is shown by name or number.  A wait status needs a
name for the signal it carries, and the line for a delivered signal a name and a
description. -/
theorem signals_told_iff {host : Host} (h : host.DistinctNames) :
    (∀ w w' : BitVec 32, waitStatus w ≠ waitStatus w' →
      (Told (waitStatusConvs host w) (waitStatusConvs host w') ↔
        (waitStatus w).Named host ∧ (waitStatus w').Named host)) ∧
    (∀ (opts : Options) (pid pid' sig sig' : Nat), sig ≠ sig' →
      (Told (signalLineConvs host opts pid sig) (signalLineConvs host opts pid' sig') ↔
        ((host.sigabbrev sig).isSome ∧ (host.sigdescr sig).isSome) ∧
          (host.sigabbrev sig').isSome ∧ (host.sigdescr sig').isSome)) ∧
    (∀ value value' : Word, signalArg value ≠ signalArg value' →
      Told (signalArgConvs host value) (signalArgConvs host value')) ∧
    (∀ mask mask' : Word, mask ≠ mask' →
      Told (sigsetConvs host mask) (sigsetConvs host mask')) := by
  refine ⟨fun w w' hne => ?_, fun opts pid pid' sig sig' hne => ?_, fun value value' hne => ?_,
    fun mask mask' hne => ?_⟩
  · rw [Told, waitStatusConvs_nullFree, waitStatusConvs_nullFree]
    exact ⟨fun ht => ht.2, fun hn => ⟨fun heq => hne (printed_waitStatus_inj h hn.1 hn.2 heq), hn⟩⟩
  · rw [Told, signalLine_nullFree, signalLine_nullFree, ← signalLine_eq, ← signalLine_eq]
    exact ⟨fun ht => ht.2, fun hn =>
      ⟨fun heq => hne (printed_signalLine_inj h hn.1.1 hn.2.1 heq), hn⟩⟩
  · exact signalArg_told h hne
  · exact sigset_told h hne

theorem chld_distinctNames : chldHost.DistinctNames := by
  have hblank : (0x20 : Byte) ∉ lit "CHLD" := by with_unfolding_all decide
  constructor
  · intro sig sig' t hsig hsig'
    rw [(chldHost_sigabbrev hsig).1, (chldHost_sigabbrev hsig').1]
  · intro sig t hsig
    rw [(chldHost_sigabbrev hsig).2]
    exact hblank

/-- Killed by `SIGCHLD` and exited with code 1. -/
theorem signals_told_chld :
    chldHost.DistinctNames ∧ Told (waitStatusConvs chldHost 17) (waitStatusConvs chldHost 0x100) :=
  ⟨chld_distinctNames,
    ((signals_told_iff chld_distinctNames).1 17 0x100 (by decide)).mpr ⟨by decide, by decide⟩⟩

/-- Two real-time signals: a process killed by one, or stopped by one, or about to be
delivered one, is shown as if it were the other. -/
theorem realtime_signals_alike :
    chldHost.DistinctNames ∧
    waitStatus 34 = .signaled 34 ∧ waitStatus 35 = .signaled 35 ∧
    waitStatusText chldHost 34 = lit "[\x7bWIFSIGNALED(s) && WTERMSIG(s) == SIG(null)\x7d]" ∧
    waitStatusText chldHost 35 = waitStatusText chldHost 34 ∧
    ¬NullFree (waitStatusConvs chldHost 34) ∧
    waitStatus 0x227f = .stopped 34 ∧ waitStatus 0x237f = .stopped 35 ∧
    waitStatusText chldHost 0x237f = waitStatusText chldHost 0x227f ∧
    (∀ opts pid, signalLine chldHost opts pid 35 = signalLine chldHost opts pid 34) :=
  ⟨chld_distinctNames, by decide, by decide, by with_unfolding_all decide,
    by with_unfolding_all decide, by decide, by decide, by decide,
    by with_unfolding_all decide, fun _ _ => rfl⟩

end MiniStrace
