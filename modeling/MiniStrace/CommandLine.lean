/-
  CommandLine.lean --- the options of `main`, and what it does with them.

  THE LOOP.  Options are read from the left until something is not one, and an option given
  twice counts the last time.  `optionArgs` says which arguments belong to which option,
  apart from the loop.

  NUMBERS.  `-s` and `-p` take the result of `strtol`, a `long`.  The size is clamped.  The
  process id is converted to a `pid_t` of 32 bits, and `-1` of these doubles as the mark that
  there was no `-p`.
-/
import MiniStrace.Lib.Strtol
import MiniStrace.TraceFilter
import MiniStrace.Render

set_option autoImplicit false

namespace MiniStrace

open CLib

/-! ## The loop -/

/-- The variables of `main` that the options set, `max_str_len` and the filter. -/
structure MainState where
  attachPid : Int := -1
  opts : Options := ⟨false, false, false, false⟩
  outputFile : Option Text := none
  maxStrLen : Nat := 200
  filter : Filter := []
  deriving DecidableEq

/-- The conversion of a `long` to `pid_t`. -/
def toPidT (v : Int) : Int := v.bmod (2 ^ 32)

/-- The option loop of `main`, from `argv[1]` on: the text of an error, or what the options
set and the arguments they leave. -/
def optionLoop : List Text → MainState → Except Text (MainState × List Text)
  | [], st => .ok (st, [])
  | arg :: args, st =>
      if arg = lit "-f" then optionLoop args { st with opts.followForks := true }
      else if arg = lit "-y" then optionLoop args { st with opts.showFdPaths := true }
      else if arg = lit "-T" then optionLoop args { st with opts.showTiming := true }
      else if arg = lit "-c" then optionLoop args { st with opts.summaryMode := true }
      else if arg = lit "-o" then
        match args with
        | [] => .error (lit "error: -o needs a file path\n")
        | file :: args => optionLoop args { st with outputFile := some file }
      else if arg = lit "-s" then
        match args with
        | [] => .error (lit "error: -s needs a size argument\n")
        | size :: args =>
            if (strtol size).2 ≠ [] ∨ (strtol size).1 < 1 then
              .error (lit "error: '" ++ size ++ lit "' is not a valid size\n")
            else
              optionLoop args { st with
                maxStrLen :=
                  if (strtol size).1.toNat < strArgBufLen then (strtol size).1.toNat
                  else strArgBufLen }
      else if arg = lit "-p" then
        match args with
        | [] => .error (lit "error: -p needs a PID argument\n")
        | pid :: args =>
            if (strtol pid).2 ≠ [] ∨ (strtol pid).1 ≤ 0 then
              .error (lit "error: '" ++ pid ++ lit "' is not a valid PID\n")
            else optionLoop args { st with attachPid := toPidT (strtol pid).1 }
      else if arg = lit "-e" then
        match args with
        | [] => .error (lit "error: -e needs an argument, e.g. -e trace=file\n")
        | opt :: args =>
            match parseEOption st.filter opt with
            | none =>
                .error (lit "error: unrecognized -e option '" ++ opt ++
                  lit "' (only trace=SET is supported)\n")
            | some filter => optionLoop args { st with filter := filter }
      else .ok (st, arg :: args)

/-- What `main` does when the options are read. -/
inductive Launch where
  /-- `perror("fopen")` -/
  | fopenFailed
  /-- `PTRACE_ATTACH` to a process -/
  | attach (pid : Int)
  /-- the usage text -/
  | usage
  /-- `fork`, and the program with its arguments in the child -/
  | spawn (program : List Text)
  deriving DecidableEq

/-- The end of `main`; `fopen` says which files can be opened for `-o`. -/
def launch (fopen : Text → Bool) (st : MainState) (args : List Text) : Launch :=
  if st.outputFile.any fun file => !fopen file then .fopenFailed
  else if st.attachPid ≠ -1 then .attach st.attachPid
  else if args = [] then .usage
  else .spawn args

/-! ## Which argument belongs to which option -/

/-- The options without an argument. -/
def switches : List Text := ["-f", "-y", "-T", "-c"].map lit

/-- The options with one. -/
def valued : List Text := ["-o", "-s", "-p", "-e"].map lit

/-- The arguments given to `flag`, in order. -/
def optionArgs (flag : Text) : List Text → List Text
  | [] => []
  | arg :: args =>
      if arg ∈ switches then optionArgs flag args
      else if arg ∈ valued then
        match args with
        | [] => []
        | value :: args =>
            if arg = flag then value :: optionArgs flag args else optionArgs flag args
      else []

theorem optionArgs_switch {arg : Text} (h : arg ∈ switches) (flag : Text) (args : List Text) :
    optionArgs flag (arg :: args) = optionArgs flag args := by
  cases args <;> simp [optionArgs, h]

theorem valued_not_switch : ∀ arg ∈ valued, arg ∉ switches := by with_unfolding_all decide

theorem optionArgs_valued {arg : Text} (h : arg ∈ valued) (flag value : Text) (args : List Text) :
    optionArgs flag (arg :: value :: args) =
      if arg = flag then value :: optionArgs flag args else optionArgs flag args := by
  rw [optionArgs, if_neg (valued_not_switch arg h), if_pos h]

/-! ## Whole command lines -/

/-- The value of the last argument of an option, or what was there before. -/
def lastOf {α : Type} (f : Text → α) (init : α) (args : List Text) : α :=
  args.foldl (fun _ arg => f arg) init

theorem lastOf_concat {α : Type} (f : Text → α) (init : α) (earlier : List Text) (arg : Text) :
    lastOf f init (earlier ++ [arg]) = f arg := by
  rw [lastOf, List.foldl_append]
  rfl

/-- What holds of the first value and of every argument's holds of the last. -/
theorem lastOf_induct {α : Type} {P : α → Prop} {f : Text → α} {init : α} (hinit : P init)
    {args : List Text} (h : ∀ arg ∈ args, P (f arg)) : P (lastOf f init args) := by
  induction args using List.reverseRecOn with
  | nil => exact hinit
  | append_singleton earlier arg _ =>
      rw [lastOf_concat]
      exact h arg (by simp)

/-- The command line takes a variable from `init` to `final` through the arguments of one
option, each of which is valid. -/
structure Reads {α : Type} (flag : Text) (f : Text → α) (Valid : Text → Prop) (argv : List Text)
    (init final : α) : Prop where
  last : final = lastOf f init (optionArgs flag argv)
  valid : ∀ arg ∈ optionArgs flag argv, Valid arg

namespace Reads

variable {α : Type} {flag : Text} {f : Text → α} {Valid : Text → Prop} {arg value : Text}
  {args : List Text} {init final : α}

theorem nil : Reads flag f Valid [] init init where
  last := rfl
  valid := by simp [optionArgs]

theorem stop (hs : arg ∉ switches) (hv : arg ∉ valued) :
    Reads flag f Valid (arg :: args) init init := by
  have hargs : optionArgs flag (arg :: args) = [] := by
    cases args <;> simp [optionArgs, hs, hv]
  constructor <;> rw [hargs]
  · rfl
  · simp

theorem switch (h : Reads flag f Valid args init final) (harg : arg ∈ switches) :
    Reads flag f Valid (arg :: args) init final := by
  constructor <;> rw [optionArgs_switch harg]
  · exact h.last
  · exact h.valid

/-- An option that is not the one. -/
theorem other (h : Reads flag f Valid args init final) (harg : arg ∈ valued) (hne : arg ≠ flag) :
    Reads flag f Valid (arg :: value :: args) init final := by
  constructor <;> rw [optionArgs_valued harg, if_neg hne]
  · exact h.last
  · exact h.valid

/-- The option itself: what was there before is gone. -/
theorem hit (h : Reads flag f Valid args (f value) final) (hflag : flag ∈ valued)
    (hvalue : Valid value) : Reads flag f Valid (flag :: value :: args) init final := by
  constructor <;> rw [optionArgs_valued hflag, if_pos rfl]
  · exact h.last
  · intro arg harg
    rcases List.mem_cons.mp harg with rfl | harg
    · exact hvalue
    · exact h.valid arg harg

end Reads

/-- What `-p` makes of its argument. -/
def pidOf (arg : Text) : Int := toPidT (strtol arg).1

/-- What `-s` makes of its argument. -/
def maxStrLenOf (arg : Text) : Nat :=
  if (strtol arg).1.toNat < strArgBufLen then (strtol arg).1.toNat else strArgBufLen

/-- A whole numeral of a positive number. -/
def PositiveArg (arg : Text) : Prop := (strtol arg).2 = [] ∧ 1 ≤ (strtol arg).1

theorem positiveArg_of_not {arg : Text} (h : ¬((strtol arg).2 ≠ [] ∨ (strtol arg).1 < 1)) :
    PositiveArg arg := by
  push Not at h
  exact h

/-- The whole loop: both numbers are those of the last options that set them. -/
theorem optionLoop_reads {argv : List Text} {st st' : MainState} {rest : List Text}
    (h : optionLoop argv st = .ok (st', rest)) :
    Reads (lit "-p") pidOf PositiveArg argv st.attachPid st'.attachPid ∧
      Reads (lit "-s") maxStrLenOf PositiveArg argv st.maxStrLen st'.maxStrLen := by
  have hswitch : ∀ s ∈ ["-f", "-y", "-T", "-c"], lit s ∈ switches := by with_unfolding_all decide
  have hvalued : ∀ s ∈ ["-o", "-s", "-p", "-e"], lit s ∈ valued := by with_unfolding_all decide
  have hne : ∀ {a b : String}, a ≠ b → lit a ≠ lit b := fun h heq => h (lit_injective heq)
  fun_induction optionLoop argv st
  case case1 st =>
    obtain ⟨rfl, -⟩ := Prod.mk.inj (Except.ok.inj h)
    exact ⟨.nil, .nil⟩
  -- the switches set nothing that is a number
  case case2 args st ih =>
    exact ⟨(ih h).1.switch (hswitch "-f" (by simp)), (ih h).2.switch (hswitch "-f" (by simp))⟩
  case case3 args st _ ih =>
    exact ⟨(ih h).1.switch (hswitch "-y" (by simp)), (ih h).2.switch (hswitch "-y" (by simp))⟩
  case case4 args st _ _ ih =>
    exact ⟨(ih h).1.switch (hswitch "-T" (by simp)), (ih h).2.switch (hswitch "-T" (by simp))⟩
  case case5 args st _ _ _ ih =>
    exact ⟨(ih h).1.switch (hswitch "-c" (by simp)), (ih h).2.switch (hswitch "-c" (by simp))⟩
  case case7 st file args _ _ _ _ ih =>
    have ho := hvalued "-o" (by simp)
    exact ⟨(ih h).1.other ho (hne (by decide)), (ih h).2.other ho (hne (by decide))⟩
  case case10 st size args hvalid _ _ _ _ _ ih =>
    have hs := hvalued "-s" (by simp)
    exact ⟨(ih h).1.other hs (hne (by decide)), (ih h).2.hit hs (positiveArg_of_not hvalid)⟩
  case case13 st pid args hvalid _ _ _ _ _ _ ih =>
    have hp := hvalued "-p" (by simp)
    have hpos := positiveArg_of_not fun hc => hvalid (hc.imp_right fun h => by omega)
    exact ⟨(ih h).1.hit hp hpos, (ih h).2.other hp (hne (by decide))⟩
  case case16 st opt args filter _ _ _ _ _ _ _ _ ih =>
    have he := hvalued "-e" (by simp)
    exact ⟨(ih h).1.other he (hne (by decide)), (ih h).2.other he (hne (by decide))⟩
  case case17 arg args st _ _ _ _ _ _ _ _ =>
    obtain ⟨rfl, -⟩ := Prod.mk.inj (Except.ok.inj h)
    have hs : arg ∉ switches := by simp [switches, *]
    have hv : arg ∉ valued := by simp [valued, *]
    exact ⟨.stop hs hv, .stop hs hv⟩
  -- the rest are errors
  all_goals exact absurd h (by simp)

/-! ## What the numbers mean -/

theorem PositiveArg.denotes {arg : Text} (h : PositiveArg arg) : ∃ v, Denotes arg v :=
  denotes_of_strtol h.1 (by have := h.2; omega)

/-- On every accepted command line, with `-s` or without, `max_str_len` is within the arrays
it bounds. -/
theorem optionLoop_maxStrLen {argv : List Text} {st : MainState} {rest : List Text}
    (h : optionLoop argv {} = .ok (st, rest)) :
    1 ≤ st.maxStrLen ∧ st.maxStrLen ≤ strArgBufLen := by
  have hsize := (optionLoop_reads h).2
  rw [hsize.last]
  refine lastOf_induct (P := fun n => 1 ≤ n ∧ n ≤ strArgBufLen) (by decide) fun arg harg => ?_
  have hpos := (hsize.valid arg harg).2
  rw [maxStrLenOf, strArgBufLen]
  split <;> omega

/-- The conversion keeps a positive number exactly if it is at most `INT_MAX`. -/
theorem toPidT_eq_iff {v : Int} (h : 1 ≤ v) : toPidT v = v ↔ v ≤ 2147483647 := by
  unfold toPidT
  constructor
  · intro heq
    have := Int.bmod_lt (x := v) (m := 2 ^ 32) (by decide)
    omega
  · intro hle
    exact Int.bmod_eq_of_le (by omega) (by omega)

theorem saturate_le_iff (v : Int) : saturate v ≤ 2147483647 ↔ v ≤ 2147483647 := by
  unfold saturate longMin longMax
  omega

/-- The file of `-o`, if there is one, can be opened. -/
def MainState.CanOpen (fopen : Text → Bool) (st : MainState) : Prop :=
  ∀ file, st.outputFile = some file → fopen file = true

theorem launch_eq_attach_iff {fopen : Text → Bool} {st : MainState} (hopen : st.CanOpen fopen)
    (rest : List Text) (pid : Int) :
    launch fopen st rest = .attach pid ↔ st.attachPid = pid ∧ pid ≠ -1 := by
  have hfile : ¬(st.outputFile.any fun file => !fopen file) = true := by
    cases hf : st.outputFile with
    | none => simp
    | some file => simp [hopen file hf]
  rw [launch, if_neg hfile]
  split
  · rename_i hne
    constructor
    · intro h
      cases h
      exact ⟨rfl, hne⟩
    · rintro ⟨rfl, -⟩
      rfl
  · rename_i hne
    push Not at hne
    rw [hne]
    constructor
    · intro h
      split at h <;> exact absurd h (by simp)
    · rintro ⟨rfl, h⟩
      exact absurd rfl h

/-- On every command line that is accepted, the size is the number `-s` was given, clamped
to the array, and the process attached to is the number `-p` was given, provided that number
is a `pid_t`. -/
theorem numeric_options_iff {argv : List Text} {st : MainState} {rest : List Text}
    (h : optionLoop argv {} = .ok (st, rest)) :
    (∀ earlier arg, optionArgs (lit "-p") argv = earlier ++ [arg] →
      (∃ v, Denotes arg v) ∧ ∀ v, Denotes arg v → ∀ fopen, st.CanOpen fopen →
        (launch fopen st rest = .attach (saturate v) ↔ v ≤ 2147483647)) ∧
    (∀ earlier arg, optionArgs (lit "-s") argv = earlier ++ [arg] →
      (∃ v, Denotes arg v) ∧ ∀ v, Denotes arg v →
        (st.maxStrLen : Int) = min (saturate v) strArgBufLen ∧
          1 ≤ st.maxStrLen ∧ st.maxStrLen ≤ 1024) := by
  obtain ⟨hpid, hsize⟩ := optionLoop_reads h
  constructor
  · intro earlier arg hargs
    have hvalid : PositiveArg arg := hpid.valid arg (by simp [hargs])
    refine ⟨hvalid.denotes, fun v hv fopen hopen => ?_⟩
    have hlast := hpid.last
    rw [hargs, lastOf_concat, pidOf] at hlast
    have hpos := hvalid.2
    rw [strtol_of_denotes hv] at hlast hpos
    rw [launch_eq_attach_iff hopen, hlast, toPidT_eq_iff hpos, saturate_le_iff]
    exact and_iff_left (by omega)
  · intro earlier arg hargs
    have hvalid : PositiveArg arg := hsize.valid arg (by simp [hargs])
    refine ⟨hvalid.denotes, fun v hv => ?_⟩
    have hlast := hsize.last
    rw [hargs, lastOf_concat, maxStrLenOf] at hlast
    have hpos := hvalid.2
    rw [strtol_of_denotes hv] at hlast hpos
    dsimp only at hlast hpos
    refine ⟨?_, optionLoop_maxStrLen h⟩
    rw [hlast, strArgBufLen]
    split <;> omega

/-- `-s 4096 -p 7`. -/
theorem numeric_options_small :
    optionLoop [lit "-s", lit "4096", lit "-p", lit "7"] {} =
        .ok (⟨7, ⟨false, false, false, false⟩, none, 1024, []⟩, []) ∧
      launch (fun _ => true) ⟨7, ⟨false, false, false, false⟩, none, 1024, []⟩ [] = .attach 7 := by
  have h : optionLoop [lit "-s", lit "4096", lit "-p", lit "7"] {} =
      .ok (⟨7, ⟨false, false, false, false⟩, none, 1024, []⟩, []) := by with_unfolding_all decide
  have hargs : optionArgs (lit "-p") [lit "-s", lit "4096", lit "-p", lit "7"] = [lit "7"] := by
    with_unfolding_all decide
  have hseven : Denotes (lit "7") 7 :=
    ⟨[], [], lit "7", 1, rfl, by simp, by decide, by decide +kernel, by decide +kernel,
      by decide +kernel⟩
  exact ⟨h, (((numeric_options_iff h).1 [] _ hargs).2 7 hseven (fun _ => true)
    (fun _ _ => rfl)).mpr (by decide)⟩

/-- `-p 4294967295` is accepted and then taken for no `-p` at all, and `-p 4294967303`
attaches to process 7. -/
theorem pid_narrowed :
    optionLoop [lit "-p", lit "4294967295"] {} = .ok ({}, []) ∧
    launch (fun _ => true) {} [] = .usage ∧
    strtol (lit "4294967295") = (4294967295, []) ∧
    optionLoop [lit "-p", lit "4294967303"] {} = .ok ({ attachPid := 7 }, []) ∧
    launch (fun _ => true) { attachPid := 7 } [] = .attach 7 ∧
    optionLoop [lit "-p", lit "99999999999999999999"] {} = .ok ({}, []) ∧
    strtol (lit "99999999999999999999") = (9223372036854775807, []) := by
  refine ⟨?_, ?_, ?_, ?_, ?_, ?_, ?_⟩ <;> decide +kernel

end MiniStrace
