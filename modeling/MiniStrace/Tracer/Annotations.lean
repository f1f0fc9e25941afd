/-
  Tracer/Annotations.lean --- what `-y` and `-T` add to a trace.

  THE NOTES.  `-y` puts the target of a descriptor behind the descriptor, `-T` the duration
  of a call behind its result.  Which slots are descriptors is the business of one more
  table, which is asked beside the ladder that picks the decoders.

  NOTHING ELSE.  A run with the two options and the run without them on the same results of
  `waitpid` print the same groups, one for one.  A slot of a call differs by its target, and
  only if the slot is a descriptor that has one; a result differs by its duration.
-/
import MiniStrace.Exit.Slots
import MiniStrace.Decoders.Embedded
import MiniStrace.Tracer.Observer

set_option autoImplicit false

namespace MiniStrace

open CLib OutBuf

/-! ## Descriptors -/

/-- The slot is a descriptor with the given target, as much of it as is copied. -/
structure FdTarget (t : Tracee) (name : String) (args : Args) (i : Nat) (path : Text) : Prop where
  descriptor : (fdArgMask name).testBit i = true
  notCwd : (dirfdArgMask name).testBit i = true → signed 32 ((args i).toNat % 2 ^ 32) ≠ atFdcwd
  nonneg : 0 ≤ (args i).toInt
  target : ∃ link, t.link (args i).toInt.toNat = some link ∧ path = cstr (link.take 191)

/-- A slot without `-y` and with it. -/
inductive SlotNoted (showFdPaths : Bool) (t : Tracee) (name : String) (args : Args) (i : Nat) :
    Text → Text → Prop
  | noted {text path : Text} : showFdPaths = true → FdTarget t name args i path →
      SlotNoted showFdPaths t name args i text (text ++ (lit "<" ++ path ++ lit ">"))
  | same {text : Text} : (showFdPaths = true → ∀ path, ¬FdTarget t name args i path) →
      SlotNoted showFdPaths t name args i text text

theorem resolveFdPath_eq_some {t : Tracee} {fd : Int} {path : Text} :
    resolveFdPath t fd 192 = some path ↔
      0 ≤ fd ∧ ∃ link, t.link fd.toNat = some link ∧ path = link.take 191 := by
  unfold resolveFdPath
  split_ifs with h
  · refine iff_of_false (fun h' => by cases h') fun h' => ?_
    have hnonneg := h'.1
    omega
  · rw [Option.map_eq_some_iff]
    constructor
    · rintro ⟨link, hlink, rfl⟩
      exact ⟨by omega, link, hlink, rfl⟩
    · rintro ⟨-, link, hlink, rfl⟩
      exact ⟨link, hlink, rfl⟩

/-- An address and a target fit into a slot. -/
theorem formatHexOrFdArg_str (t : Tracee) (raw : Word) (isFdArg : Bool) (init : Nat → Byte) :
    (formatHexOrFdArg t raw isFdArg (new strArgBufLen init)).str = hexOrFdText t raw isFdArg := by
  have hlit : Clean (lit "<") ∧ Clean (lit ">") ∧ (lit "<").length = 1 ∧ (lit ">").length = 1 := by
    with_unfolding_all decide
  have hhex := length_addr_le raw
  have hzero : ∀ b ∈ hex0x raw.toNat, b ≠ 0 := fun b hb => (clean_hex0x _).ne_zero hb
  have hbuf : strArgBufLen = 1024 := rfl
  have hstr := (fills_snprintf (hexOrFdText t raw isFdArg)).str_eq_cut (by decide) strArgBufLen_lt
    (by decide) (hexOrFdText_ne_nil t raw isFdArg) init
  rw [formatHexOrFdArg, hstr]
  unfold hexOrFdText
  cases hpath : (if isFdArg then resolveFdPath t raw.toInt 192 else none) with
  | none => exact cut_of_lt hzero (by dsimp only; omega)
  | some path =>
      have hshort : (cstr path).length ≤ 191 := by
        split_ifs at hpath
        obtain ⟨-, link, -, rfl⟩ := resolveFdPath_eq_some.mp hpath
        refine le_trans (length_cstr_le _) ?_
        rw [List.length_take]
        omega
      refine cut_of_lt ?_ ?_
      · intro b hb
        simp only [List.mem_append] at hb
        rcases hb with ((hb | hb) | hb) | hb
        · exact hzero b hb
        · exact hlit.1.ne_zero hb
        · exact cstr_ne_zero hb
        · exact hlit.2.1.ne_zero hb
      · simp only [List.length_append, hlit]
        omega

section Slots

variable {host : Host} {t : Tracee} {showFdPaths : Bool} {name : String} {args : Args} {i : Nat}

/-- A descriptor printed as a number, where `AT_FDCWD` is no matter. -/
theorem slotNoted_hexOrFd
    (hcwd : (dirfdArgMask name).testBit i = true → signed 32 ((args i).toNat % 2 ^ 32) ≠ atFdcwd) :
    SlotNoted showFdPaths t name args i (hexOrFdText t (args i) (isFdArg false name i))
      (hexOrFdText t (args i) (isFdArg showFdPaths name i)) := by
  have hbare : hexOrFdText t (args i) (isFdArg false name i) = hex0x (args i).toNat := by
    simp [hexOrFdText, isFdArg]
  rw [hbare]
  unfold hexOrFdText
  cases hpath : (if isFdArg showFdPaths name i then resolveFdPath t (args i).toInt 192
      else none) with
  | none =>
      refine .same ?_
      rintro rfl path ⟨hfd, -, hnonneg, link, hlink, -⟩
      have hres := resolveFdPath_eq_some.mpr ⟨hnonneg, link, hlink, rfl⟩
      rw [if_pos (show isFdArg true name i = true from hfd), hres] at hpath
      cases hpath
  | some path =>
      cases hfd : isFdArg showFdPaths name i with
      | false =>
          rw [hfd] at hpath
          cases hpath
      | true =>
          rw [hfd, if_pos rfl] at hpath
          obtain ⟨hnonneg, link, hlink, rfl⟩ := resolveFdPath_eq_some.mp hpath
          cases showFdPaths with
          | false => simp [isFdArg] at hfd
          | true =>
              have htarget : FdTarget t name args i (cstr (link.take 191)) :=
                ⟨hfd, hcwd, hnonneg, link, hlink, rfl⟩
              dsimp only
              rw [List.append_assoc, List.append_assoc, ← List.append_assoc (lit "<")]
              exact .noted rfl htarget

theorem slotNoted_plain (hdir : (dirfdArgMask name).testBit i = false) (init : Nat → Byte) :
    SlotNoted showFdPaths t name args i
      (formatPlain t false name args i (new strArgBufLen init)).str
      (formatPlain t showFdPaths name args i (new strArgBufLen init)).str := by
  rw [formatPlain, formatPlain, formatHexOrFdArg_str, formatHexOrFdArg_str]
  exact slotNoted_hexOrFd fun h => by rw [hdir] at h; cases h

theorem slotNoted_dirfd (init : Nat → Byte)
    (hdir : (dirfdArgMask name).testBit i = true) :
    SlotNoted showFdPaths t name args i
      (formatDirfd t (args i) (isFdArg false name i) (new strArgBufLen init)).str
      (formatDirfd t (args i) (isFdArg showFdPaths name i) (new strArgBufLen init)).str := by
  unfold formatDirfd
  split_ifs with hcwd
  · exact .same fun _ path h => h.notCwd hdir hcwd
  · rw [formatHexOrFdArg_str, formatHexOrFdArg_str]
    exact slotNoted_hexOrFd fun _ => hcwd

/-- The decoders look at `-y` through the descriptor bit of their slot. -/
theorem decodeInput_congr {s s' : Bool} (h : isFdArg s name i = isFdArg s' name i) (l : Lookup) :
    decodeInput host t s name args l i = decodeInput host t s' name args l i := by
  cases l <;> simp only [decodeInput, formatPlain, h]

theorem decodeOutput_congr {s s' : Bool} (h : isFdArg s name i = isFdArg s' name i) (p : Pending)
    (ret : Int) (l : Lookup) :
    decodeOutput host t s name args p ret l i = decodeOutput host t s' name args p ret l i := by
  cases l <;> simp only [decodeOutput, decodeInput_congr h]

/-- A slot that goes to whichever decoder claims it. -/
theorem slotNoted_dispatch (decoder : Bool → Lookup → OutBuf → OutBuf) {d : Option Lookup}
    (hcongr : ∀ l s s', isFdArg s name i = isFdArg s' name i → decoder s l = decoder s' l)
    (hdirfd : ∀ s, decoder s .dirfdArg = formatDirfd t (args i) (isFdArg s name i))
    (hsome : ∀ l, d = some l → l.assigns name i = true)
    (hnone : d = none → Lookup.assigns .dirfdArg name i = false) (init : Nat → Byte) :
    SlotNoted showFdPaths t name args i
      ((match d with
        | some l => decoder false l
        | none => formatPlain t false name args i) (new strArgBufLen init)).str
      ((match d with
        | some l => decoder showFdPaths l
        | none => formatPlain t showFdPaths name args i) (new strArgBufLen init)).str := by
  cases d with
  | none => exact slotNoted_plain (hnone rfl) init
  | some l =>
      have hl := hsome l rfl
      by_cases hdir : l = .dirfdArg
      · subst hdir
        dsimp only
        rw [hdirfd, hdirfd]
        exact slotNoted_dirfd init hl
      · have hfd := isFdArg_of_assigns hdir hl
        dsimp only
        rw [hcongr l false showFdPaths (by rw [hfd, hfd])]
        refine .same fun _ path h => ?_
        have hbit : isFdArg true name i = true := h.descriptor
        rw [hfd] at hbit
        cases hbit

/-- Both ladders ask for directory descriptors. -/
theorem dirfdArg_mem : Lookup.dirfdArg ∈ entryLadder ∧ Lookup.dirfdArg ∈ inputLadder := by
  decide +kernel

theorem entryArg_noted (host : Host) (t : Tracee) (showFdPaths : Bool) (name : String)
    (args : Args) (i : Nat) :
    SlotNoted showFdPaths t name args i (entryArg host t false name args i)
      (entryArg host t showFdPaths name args i) := by
  refine slotNoted_dispatch (fun s l => decodeInput host t s name args l i)
    (fun l _ _ h => decodeInput_congr h l) (fun _ => rfl) (fun l hl => ?_) (fun hnone => ?_)
    host.junk
  · unfold entryDispatch at hl
    have hassigns := List.find?_some hl
    exact hassigns
  · exact Bool.eq_false_iff.mpr (List.find?_eq_none.mp hnone .dirfdArg dirfdArg_mem.1)

theorem exitArg_noted (host : Host) (t : Tracee) (showFdPaths : Bool) (name : String)
    (args : Args) (ret : Int) (i : Nat) :
    SlotNoted showFdPaths t name args i (exitArg host t false name args (.ofName name) ret i)
      (exitArg host t showFdPaths name args (.ofName name) ret i) := by
  have hdirfd : ∀ s, decodeOutput host t s name args (.ofName name) ret .dirfdArg i =
      formatDirfd t (args i) (isFdArg s name i) := fun s => by
    simp only [decodeOutput, decodeInput]
  refine slotNoted_dispatch (fun s l => decodeOutput host t s name args (.ofName name) ret l i)
    (fun l _ _ h => decodeOutput_congr h _ ret l) hdirfd (fun l hl => ?_) (fun hnone => ?_)
    host.junk
  · unfold exitDispatch at hl
    cases hin : inputLadder.find? (·.assigns name i) with
    | some l' =>
        rw [hin] at hl
        cases hl
        have hassigns := List.find?_some hin
        exact hassigns
    | none =>
        rw [hin] at hl
        have hclaims := List.find?_some hl
        rw [Bool.and_eq_true, claims_ofName (List.mem_of_find?_eq_some hl)] at hclaims
        exact hclaims.1
  · unfold exitDispatch at hnone
    cases hin : inputLadder.find? (·.assigns name i) with
    | some l' =>
        rw [hin] at hnone
        cases hnone
    | none => exact Bool.eq_false_iff.mpr (List.find?_eq_none.mp hin .dirfdArg dirfdArg_mem.2)

end Slots

/-! ## Groups -/

section Groups

variable {τ : Type}

/-- The same options without `-y` and `-T`. -/
def Config.bare (cfg : Config τ) : Config τ :=
  { cfg with opts := { cfg.opts with showTiming := false, showFdPaths := false } }

/-- A call in both runs, where `arg y i` is what slot `i` holds without `-y` or with it. -/
structure CallNoted (cfg : Config τ) (t : Tracee) (c : Call) (arg : Bool → Nat → Text)
    (text text' : Text) : Prop where
  bare : text = printCall (pidPrefix cfg.opts.followForks t.pid) c.name (arg false)
  noted : text' =
    printCall (pidPrefix cfg.opts.followForks t.pid) c.name (arg cfg.opts.showFdPaths)
  slots : ∀ i, SlotNoted cfg.opts.showFdPaths t c.name c.args i (arg false i)
    (arg cfg.opts.showFdPaths i)

/-- A result in both runs. -/
structure ResultNoted (cfg : Config τ) (c : Call) (ret : Int) (now : Timespec) (text text' : Text) :
    Prop where
  bare : text = printRet cfg.host ret []
  noted : ∃ line, text = line ++ lit "\n" ∧ text' = line ++ timingText cfg c now ++ lit "\n"

/-- A group of an event in both runs. -/
inductive Noted (cfg : Config τ) : Event → Chunk → Chunk → Prop
  | entered {t : Tracee} {c : Call} {text text' : Text} :
      CallNoted cfg t c (entryArg cfg.host t · c.name c.args) text text' →
      Noted cfg (.entered t c) ⟨t.pid, text⟩ ⟨t.pid, text'⟩
  | deferred {t : Tracee} {c : Call} {ret : Int} {now : Timespec} {text text' : Text} :
      CallNoted cfg t c (exitArg cfg.host t · c.name c.args (.ofName c.name) ret) text text' →
      Noted cfg (.returned t c ret now) ⟨t.pid, text⟩ ⟨t.pid, text'⟩
  | result {t : Tracee} {c : Call} {ret : Int} {now : Timespec} {text text' : Text} :
      ResultNoted cfg c ret now text text' →
      Noted cfg (.returned t c ret now) ⟨t.pid, text⟩ ⟨t.pid, text'⟩
  | signalled {pid sig : Nat} :
      Noted cfg (.signalled pid sig) ⟨pid, signalLine cfg.host cfg.opts pid sig⟩
        ⟨pid, signalLine cfg.host cfg.opts pid sig⟩

theorem printRet_noted (cfg : Config τ) (c : Call) (ret : Int) (now : Timespec) :
    ResultNoted cfg c ret now (printRet cfg.host ret [])
      (printRet cfg.host ret (timingText cfg c now)) := by
  refine ⟨rfl, ?_⟩
  unfold printRet
  split_ifs
  · exact ⟨_, by rw [List.append_nil], rfl⟩
  · exact ⟨_, by rw [List.append_nil], rfl⟩

/-- Groups that are printed under one condition. -/
theorem forall₂_unless {R : Chunk → Chunk → Prop} {cs cs' : List Chunk} (b : Bool)
    (h : List.Forall₂ R cs cs') :
    List.Forall₂ R (if b then [] else cs) (if b then [] else cs') := by
  cases b with
  | true => exact .nil
  | false => exact h

/-- The groups of one event, one for one. -/
theorem chunks_noted (cfg : Config τ) (e : Event) :
    List.Forall₂ (Noted cfg e) (e.chunks cfg.bare) (e.chunks cfg) := by
  cases e with
  | entered t c =>
      refine forall₂_unless _ (.cons (.entered ⟨rfl, rfl, fun i => ?_⟩) .nil)
      exact entryArg_noted cfg.host t cfg.opts.showFdPaths c.name c.args i
  | returned t c ret now =>
      have hret := printRet_noted cfg c ret now
      refine forall₂_unless _ (List.rel_append ?_ (.cons (.result hret) .nil))
      cases hd : deferred c.name with
      | false => exact .nil
      | true =>
          refine .cons (.deferred ⟨rfl, rfl, fun i => ?_⟩) .nil
          exact exitArg_noted cfg.host t cfg.opts.showFdPaths c.name c.args ret i
  | signalled pid sig => exact .cons .signalled .nil
  | created | gone => exact .nil

variable [AddCommMonoid τ]

/-- `-y` and `-T` add their notes and change nothing else: with and without them, a run on the
same results of `waitpid` prints the same groups for the same events, but for the targets of
descriptors and the durations; the messages and the counted calls are the same. -/
theorem annotations_only_add (cfg : Config τ) (child : Nat) (ws : List Wait) :
    List.Forall₂
        (fun chunk chunk' => ∃ e ∈ (observe cfg.opts.followForks cfg.syscallName child ws).events,
          Noted cfg e chunk chunk')
        (runTracer cfg.bare child ws).trace (runTracer cfg child ws).trace ∧
      (runTracer cfg.bare child ws).status = (runTracer cfg child ws).status ∧
      (runTracer cfg.bare child ws).summary = (runTracer cfg child ws).summary := by
  have h := follows_runTracer cfg child ws
  have hb := follows_runTracer cfg.bare child ws
  have hsame : observe cfg.bare.opts.followForks cfg.bare.syscallName child ws =
      observe cfg.opts.followForks cfg.syscallName child ws := rfl
  rw [hsame] at hb
  refine ⟨?_, ?_, ?_⟩
  · rw [h.trace, hb.trace]
    refine List.rel_flatMap (R := fun e e' =>
      e = e' ∧ e ∈ (observe cfg.opts.followForks cfg.syscallName child ws).events) ?_ ?_
    · exact List.forall₂_same.mpr fun e he => ⟨rfl, he⟩
    · rintro e _ ⟨rfl, he⟩
      exact (chunks_noted cfg e).imp fun _ _ hnoted => ⟨e, he, hnoted⟩
  · rw [h.status, hb.status]
    rfl
  · rw [h.summary, hb.summary]
    rfl

end Groups

end MiniStrace
