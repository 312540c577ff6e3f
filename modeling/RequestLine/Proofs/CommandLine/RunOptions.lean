import RequestLine.CommandLine.Report
import RequestLine.Proofs.Traversal

/-!
# What a run is asked for

The options of the command `run` are judged each on its own. Only then a statement and a file are
held against each other: a run needs exactly one of them.

* `RunOptions.GivenBy`: a command line asks for a run without a log, and all its options are valid.
* `RunOptions.GivenBy.read_eq`: its invocation, or the error that it has no or two things to run.
* `RunOptions.read_eq_run_iff`: no other command line makes an invocation of a run without a log.
* `RunOptions.Loads`: the statements that a run is asked to handle.
-/

namespace RequestLine.CommandLine

/-- What the arguments and the environment of a run say. -/
structure RunOptions where
  /-- The positional argument, which may be empty. -/
  statement : Option Text
  file : Option PathTarget
  timeout : Option Double
  raiseForStatus : Bool
  format : Format

namespace RunOptions

/-- The statement of the arguments, unless it is empty. -/
def filled (o : RunOptions) : Option Text := Environment.filled? o.statement

/-- The client that sends the requests of a run. -/
def client (o : RunOptions) : Client := ⟨o.timeout.map .double, o.raiseForStatus⟩

/-- The command of a run that has one thing to run. -/
def command (o : RunOptions) : Command :=
  .run o.filled o.file o.timeout o.raiseForStatus o.format

/-- Each option is valid on its own. -/
structure ReadFrom (o : RunOptions) (env : Environment) (a : Arguments) : Prop where
  statement : Invocation.single a.positional = .ok o.statement
  file : Invocation.file env a = .ok o.file
  timeout : Invocation.timeout env a = .ok o.timeout
  raiseForStatus : Invocation.raiseForStatus env a = .ok o.raiseForStatus
  format : Invocation.formatOf a = .ok o.format

/-- A command line asks for a run, without a log and not for help, and its options are valid. -/
structure GivenBy (o : RunOptions) (env : Environment) (args : List Text) : Prop where
  options : ∃ top rest a, Arguments.read .top false args = .ok top ∧
    top.has .verbose = false ∧ top.has .help = false ∧
    top.positional = Text.ofString "run" :: rest ∧
    Arguments.read .run true rest = .ok a ∧ a.has .help = false ∧ o.ReadFrom env a

variable {o : RunOptions} {env : Environment}

theorem isSome_filled_iff : o.filled.isSome = true ↔ ∃ t, o.statement = some t ∧ t ≠ [] := by
  rw [filled, Environment.filled?]
  cases o.statement with
  | none => simp
  | some t => cases t <;> simp [Option.filter]

/-! ## Invocations -/

theorem ReadFrom.check_eq {a : Arguments} (h : o.ReadFrom env a) (s : Switch) :
    Invocation.check env a s = .ok () := by
  cases s with
  | format => rw [Invocation.check, h.format]; rfl
  | timeout => rw [Invocation.check, h.timeout]; rfl
  | file => rw [Invocation.check, h.file]; rfl
  | help | verbose | raiseForStatus | ignoreStatus => rfl

/-- A run needs a statement or a file, and takes only one of them. -/
theorem ReadFrom.readRun_eq {a : Arguments} (h : o.ReadFrom env a) {rest : List Text}
    (hrest : Arguments.read .run true rest = .ok a) (hhelp : a.has .help = false) :
    Invocation.readRun env rest =
      if o.filled.isSome = o.file.isSome then .error .statementOrFile
      else .ok o.command := by
  have hcheck : (a.options.forM fun p => Invocation.check env a p.1) = .ok () :=
    forM_eq_ok_iff.2 fun p _ => h.check_eq p.1
  simp only [Invocation.readRun, hrest, hhelp, hcheck, h.statement, h.file, h.timeout,
    h.raiseForStatus, h.format, bind, Except.bind, filled]
  by_cases hone : (Environment.filled? o.statement).isSome = o.file.isSome
  · simp [hone]
    rfl
  · simp [hone]
    rfl

theorem read_of_run {args rest : List Text} {top : Arguments}
    (htop : Arguments.read .top false args = .ok top) (hhelp : top.has .help = false)
    (hrun : top.positional = Text.ofString "run" :: rest) :
    Invocation.read env args =
      (Invocation.readRun env rest).map (Invocation.mk (top.has .verbose)) := by
  have hargs : args.isEmpty = false := by
    cases args with
    | nil =>
      cases htop
      cases hrun
    | cons => rfl
  have hname : Text.ofString "run" ≠ Text.ofString "parse" := by decide
  simp only [Invocation.read, hargs, htop, hhelp, hrun, bind, Except.bind, if_neg hname]
  cases Invocation.readRun env rest <;> rfl

theorem GivenBy.read_eq {args : List Text} (h : o.GivenBy env args) :
    Invocation.read env args =
      if o.filled.isSome = o.file.isSome then .error .statementOrFile
      else .ok ⟨false, o.command⟩ := by
  obtain ⟨top, rest, a, htop, hverbose, htopHelp, hrun, hrest, hhelp, hread⟩ := h.options
  rw [read_of_run htop htopHelp hrun, hread.readRun_eq hrest hhelp, hverbose]
  split <;> rfl

/-! ## Only such command lines run -/

section

variable {args rest : List Text} {statement : Option Text} {file : Option PathTarget}
  {timeout : Option Double} {raise : Bool} {format : Format}

theorem exists_readFrom_of_readRun
    (h : Invocation.readRun env rest = .ok (.run statement file timeout raise format)) :
    ∃ a o, Arguments.read .run true rest = .ok a ∧ a.has .help = false ∧ ReadFrom o env a ∧
      o.command = .run statement file timeout raise format := by
  rw [Invocation.readRun, bind_eq_ok_iff] at h
  obtain ⟨a, hrest, h⟩ := h
  cases hhelp : a.has .help with
  | true =>
    rw [if_pos hhelp] at h
    cases h
  | false =>
    rw [if_neg (by simp [hhelp])] at h
    simp only [bind_eq_ok_iff] at h
    obtain ⟨_, -, t, htimeout, r, hraise, raw, hraw, f, hfile, h⟩ := h
    cases hone : (Environment.filled? raw).isSome == f.isSome with
    | true =>
      rw [if_pos hone] at h
      cases h
    | false =>
      rw [if_neg (by simp [hone])] at h
      obtain ⟨f', hformat, h⟩ := bind_eq_ok_iff.1 h
      cases h
      exact ⟨a, ⟨raw, _, _, _, _⟩, hrest, hhelp, ⟨hraw, hfile, htimeout, hraise, hformat⟩, rfl⟩

theorem readParse_ne_run :
    Invocation.readParse env rest ≠ .ok (.run statement file timeout raise format) := by
  intro h
  obtain ⟨a, -, h⟩ := bind_eq_ok_iff.1 h
  split at h
  · cases h
  obtain ⟨-, -, h⟩ := bind_eq_ok_iff.1 h
  split at h
  · cases h
  obtain ⟨raw, -, h⟩ := bind_eq_ok_iff.1 h
  obtain ⟨f, -, h⟩ := bind_eq_ok_iff.1 h
  cases h

theorem readUnknown_ne_run {name : Text} :
    Invocation.readUnknown name rest ≠ .ok (.run statement file timeout raise format) := by
  intro h
  obtain ⟨a, -, h⟩ := bind_eq_ok_iff.1 h
  split at h <;> cases h

theorem exists_givenBy_of_read_run
    (h : Invocation.read env args = .ok ⟨false, .run statement file timeout raise format⟩) :
    ∃ o, GivenBy o env args ∧ o.command = .run statement file timeout raise format := by
  unfold Invocation.read at h
  split at h
  · cases h
  obtain ⟨top, htop, h⟩ := bind_eq_ok_iff.1 h
  cases htopHelp : top.has .help with
  | true =>
    rw [if_pos htopHelp] at h
    injection h with h
    injection h with _ hc
    cases hc
  | false =>
    rw [if_neg (by simp [htopHelp])] at h
    split at h
    · cases h
    rename_i name rest hpositional
    split at h
    · obtain ⟨c, hparse, h⟩ := bind_eq_ok_iff.1 h
      injection h with h
      injection h with _ hc
      exact absurd (hc ▸ hparse) readParse_ne_run
    split at h
    · rename_i hname
      subst hname
      obtain ⟨c, hrun, h⟩ := bind_eq_ok_iff.1 h
      injection h with h
      injection h with hverbose hc
      subst hc
      obtain ⟨a, o, hrest, hhelp, hread, hcommand⟩ := exists_readFrom_of_readRun hrun
      exact ⟨o, ⟨top, rest, a, htop, hverbose, htopHelp, hpositional, hrest, hhelp, hread⟩,
        hcommand⟩
    · obtain ⟨c, hunknown, h⟩ := bind_eq_ok_iff.1 h
      injection h with h
      injection h with _ hc
      exact absurd (hc ▸ hunknown) readUnknown_ne_run

/-- Exactly these command lines make an invocation of a run without a log. -/
theorem read_eq_run_iff :
    Invocation.read env args = .ok ⟨false, .run statement file timeout raise format⟩ ↔
      ∃ o, GivenBy o env args ∧ o.filled.isSome ≠ o.file.isSome ∧
        o.command = .run statement file timeout raise format := by
  constructor
  · intro h
    obtain ⟨o, hgiven, hcommand⟩ := exists_givenBy_of_read_run h
    refine ⟨o, hgiven, fun hone => ?_, hcommand⟩
    rw [hgiven.read_eq, if_pos hone] at h
    cases h
  · rintro ⟨o, hgiven, hone, hcommand⟩
    rw [hgiven.read_eq, if_neg hone, hcommand]

end

/-! ## The shortest command lines -/

theorem givenBy_of_file (htimeout : env.timeout = none) (hraise : env.raiseForStatus = none)
    {path : Text} {target : PathTarget} (hpath : env.target? path = some target) :
    GivenBy ⟨none, some target, none, true, .json⟩ env ["run", "-f", path] := by
  have htop : Arguments.read .top false ["run", "-f", path] = .ok ⟨[], ["run", "-f", path]⟩ := by
    rw [Arguments.read, if_neg (by decide), if_neg (by decide), if_neg (by decide)]
  have hswitch : Arguments.readSwitch .run "-f" = .ok ([], some (.file, "-f")) := by rfl
  have hread : Arguments.read .run true ["-f", path] = .ok ⟨[(.file, path)], []⟩ := by
    rw [Arguments.read, if_neg (by decide), if_pos (by decide), hswitch]
    simp only [bind, Except.bind, Arguments.read]
    rfl
  have hfile : Arguments.value? ⟨[(.file, path)], []⟩ .file = some path := rfl
  have htime : Arguments.value? ⟨[(.file, path)], []⟩ .timeout = none := rfl
  refine ⟨_, _, _, htop, rfl, rfl, rfl, hread, rfl, rfl, ?_, ?_, ?_, rfl⟩
  · simp only [Invocation.file, hfile, hpath]
  · simp only [Invocation.timeout, htime, htimeout]
    rfl
  · simp only [Invocation.raiseForStatus, hraise]
    rfl

theorem givenBy_of_statement (htimeout : env.timeout = none) (hraise : env.raiseForStatus = none)
    {t : Text} (ht : Arguments.isSwitch t = false) :
    GivenBy ⟨some t, none, none, true, .json⟩ env ["run", t] := by
  have hne : t ≠ "--" := by
    rintro rfl
    cases ht
  have htop : Arguments.read .top false ["run", t] = .ok ⟨[], ["run", t]⟩ := by
    rw [Arguments.read, if_neg (by decide), if_neg (by decide), if_neg (by decide)]
  have hread : Arguments.read .run true [t] = .ok ⟨[], [t]⟩ := by
    rw [Arguments.read, if_neg hne, if_neg (by simp [ht])]
    rfl
  have htime : Arguments.value? ⟨[], [t]⟩ .timeout = none := rfl
  refine ⟨_, _, _, htop, rfl, rfl, rfl, hread, rfl, rfl, rfl, ?_, ?_, rfl⟩
  · simp only [Invocation.timeout, htime, htimeout]
    rfl
  · simp only [Invocation.raiseForStatus, hraise]
    rfl

/-! ## Reports -/

/-- The statements of a run: the one in its arguments, or those of its file. -/
inductive Loads (o : RunOptions) (env : Environment) : List Text → Prop
  | single {t : Text} : o.filled = some t → o.file = none → Loads o env [t]
  | file {bytes : List UInt8} {statements : List Text} : o.filled = none →
      o.file = some (.file bytes) → Source.load env.setOrder bytes = .ok statements →
      Loads o env statements

theorem Loads.isSome_ne {statements : List Text} (h : o.Loads env statements) :
    o.filled.isSome ≠ o.file.isSome := by
  cases h with
  | single hfilled hfile => simp [hfilled, hfile]
  | file hfilled hfile => simp [hfilled, hfile]

theorem Loads.report_eq {statements : List Text} (hl : o.Loads env statements) {args : List Text}
    {verbose : Bool} (h : Invocation.read env args = .ok ⟨verbose, o.command⟩) (s : Session) :
    Report.ofArguments env args s = Report.ofRun verbose o.client o.format statements s := by
  simp only [Report.ofArguments, h, Report.ofInvocation, command]
  cases hl with
  | single hfilled hfile =>
    simp only [hfile, hfilled]
    rfl
  | file hfilled hfile hload =>
    simp only [hfile, hload]
    rfl

theorem GivenBy.report_of_loads {args : List Text} (h : o.GivenBy env args)
    {statements : List Text} (hl : o.Loads env statements) (s : Session) :
    Report.ofArguments env args s = Report.ofRun false o.client o.format statements s := by
  apply hl.report_eq
  rw [h.read_eq, if_neg hl.isSome_ne]

/-- Nothing is printed or sent for a run that has no or two things to run. -/
theorem GivenBy.report_of_isSome_eq {args : List Text} (h : o.GivenBy env args)
    (hone : o.filled.isSome = o.file.isSome) (s : Session) :
    (Report.ofArguments env args s).stdout = [] ∧ (Report.ofArguments env args s).calls = [] ∧
      (Report.ofArguments env args s).ending = .exit 2 := by
  have hread : Invocation.read env args = .error .statementOrFile := by
    rw [h.read_eq, if_pos hone]
  rw [Report.ofArguments, hread]
  exact ⟨rfl, rfl, rfl⟩

end RunOptions

end RequestLine.CommandLine
