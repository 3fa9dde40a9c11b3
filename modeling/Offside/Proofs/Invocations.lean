/-
# Options on a command line

Options are written one to an argument, a value after its equals sign, and the
file last, behind `--` (`Options.arguments`). What is written so is read back,
whatever the languages and paths hold, if no path is empty. And a command line
never comes to an empty path: reading starts without one, and no argument adds
one. So the options that a command can be run with are just those without an
empty path (`Invocation.exists_arguments_iff`).

Key definitions: `Draft.Reads`, `Draft.NamesPaths`, `Options.arguments`.
Key theorems: `Draft.NamesPaths.argument`, `Draft.NamesPaths.read`,
`Invocation.ofArguments_arguments`, `Invocation.exists_arguments_iff`.
-/
import Offside.Command.Options

namespace Offside

namespace Draft

variable {d d' e : Draft}

/-! ### Written arguments -/

/-- Reading comes from one draft to another through arguments that are complete. -/
def Reads (d : Draft) (arguments : List Text) (d' : Draft) : Prop :=
  ∀ more, d.read none (arguments ++ more) = d'.read none more

theorem Reads.refl (d : Draft) : d.Reads [] d := fun _ => rfl

theorem Reads.trans {a b : List Text} (h : d.Reads a d') (h' : d'.Reads b e) : d.Reads (a ++ b) e := fun more => by
  rw [List.append_assoc, h, h']

theorem Reads.of_argument {a : Text} (ha : a ≠ "--") (h : d.argument a = .more d') : d.Reads [a] d' := fun more => by
  rw [List.singleton_append, read, if_neg ha, h]

theorem longValued_spec : ∀ p ∈ longValued, longFlags.lookup p.1 = none ∧ longValued.lookup p.1 = some p.2 ∧
    '=' ∉ p.1 ∧ p.1 ≠ [] := by decide

theorem argument_equals {name : Text} (d : Draft) (value : Text) (h : '=' ∉ name) :
    d.argument ("--" ++ name ++ "=" ++ value) = d.long name (some value) := by
  have hcut : Text.cut? "=" (name ++ "=" ++ value) = some (name, value) := Text.cut?_append [] value h
  have htext : "--" ++ name ++ "=" ++ value = '-' :: '-' :: (name ++ "=" ++ value) := rfl
  rw [htext, argument, hcut]

/-- An argument that gives the option `name` a value. -/
def assign (name value : Text) : Text := "--" ++ name ++ "=" ++ value

theorem reads_valued {name value : Text} {option : Valued} (hname : (name, option) ∈ longValued)
    (h : d.set? option value = some d') : d.Reads [assign name value] d' := by
  obtain ⟨hflag, hlookup, hequals, hne⟩ := longValued_spec _ hname
  dsimp only at hflag hlookup hequals hne
  refine .of_argument (fun heq => ?_) ?_
  · rw [assign, List.append_assoc, List.append_assoc, List.append_right_eq_self, List.append_eq_nil_iff] at heq
    exact hne heq.1
  · rw [assign, argument_equals d value hequals]
    unfold long
    rw [hflag, hlookup]
    exact congrArg go h

/-! ### No empty paths -/

/-- The paths of a draft hold something. -/
structure NamesPaths (d : Draft) : Prop where
  input : d.input ≠ some []
  output : d.output ≠ some []

/-- What reading goes on with names paths, and it does not stop with options. -/
inductive Next.NamesPaths : Next → Prop where
  | more {d : Draft} (h : d.NamesPaths) : NamesPaths (.more d)
  | value {d : Draft} {option : Valued} (h : d.NamesPaths) : NamesPaths (.value d option)
  | stop {i : Invocation} (h : ∀ o, i ≠ .proceed o) : NamesPaths (.stop i)

theorem fill_ne_nil {old filled : Option Text} {path : Text} (h : fillPath old path = some filled) :
    filled ≠ some [] := by
  unfold fillPath fill at h
  split at h
  · cases h
  · next hne =>
    split at h
    · cases h
    · cases h
      exact fun heq => hne (Option.some.inj heq)

theorem NamesPaths.set? (hd : d.NamesPaths) {option : Valued} {value : Text} (h : d.set? option value = some d') :
    d'.NamesPaths := by
  cases option with
  | output =>
    obtain ⟨filled, hfilled, rfl⟩ := Option.map_eq_some_iff.1 h
    exact ⟨hd.input, fill_ne_nil hfilled⟩
  | source =>
    obtain ⟨filled, -, rfl⟩ := Option.map_eq_some_iff.1 h
    exact ⟨hd.input, hd.output⟩
  | target =>
    obtain ⟨filled, -, rfl⟩ := Option.map_eq_some_iff.1 h
    exact ⟨hd.input, hd.output⟩

theorem NamesPaths.addFile? (hd : d.NamesPaths) {path : Text} (h : d.addFile? path = some d') : d'.NamesPaths := by
  obtain ⟨filled, hfilled, rfl⟩ := Option.map_eq_some_iff.1 h
  exact ⟨fill_ne_nil hfilled, hd.output⟩

theorem Next.NamesPaths.go {change : Option Draft} (h : ∀ d, change = some d → d.NamesPaths) :
    (go change).NamesPaths := by
  cases change with
  | none => exact .stop fun _ h => nomatch h
  | some d => exact .more (h d rfl)

theorem NamesPaths.once (h : d.NamesPaths) (given : Bool) :
    Next.NamesPaths (if given then .stop .misuse else .more d) := by
  cases given
  · exact .more h
  · exact .stop fun _ h => nomatch h

theorem NamesPaths.raise (hd : d.NamesPaths) : ∀ flag : Flag, (d.raise flag).NamesPaths
  | .json =>
    have h : NamesPaths { d with json := true } := ⟨hd.input, hd.output⟩
    h.once d.json
  | .list =>
    have h : NamesPaths { d with list := true } := ⟨hd.input, hd.output⟩
    h.once d.list
  | .verbose =>
    have h : NamesPaths { d with verbose := true } := ⟨hd.input, hd.output⟩
    h.once d.verbose
  | .version => .stop fun _ h => nomatch h
  | .help => .stop fun _ h => nomatch h

theorem NamesPaths.long (hd : d.NamesPaths) (name : Text) (value : Option Text) : (d.long name value).NamesPaths := by
  unfold Draft.long
  split
  · exact hd.raise _
  · exact .value hd
  · exact .go fun e he => hd.set? he
  · exact .stop fun _ h => nomatch h

theorem NamesPaths.letters {t : Text} (hd : d.NamesPaths) : (d.letters t).NamesPaths := by
  fun_induction Draft.letters d t with
  | case1 d => exact .more hd
  -- a `v`, first of all or once more
  | case2 d rest d' hraise ih =>
    have hnext := hd.raise .verbose
    rw [hraise] at hnext
    cases hnext with
    | more hd' => exact ih hd'
  | case3 d rest hraise => exact hd.raise .verbose
  -- a `V`, an `h` and a letter that is none
  | case4 | case5 | case9 => exact .stop fun _ h => nomatch h
  -- an `o` with the path in the next argument, or in this one
  | case6 d => exact .value hd
  | case7 d path | case8 d path => exact .go fun e he => hd.set? he

/-- **No argument adds an empty path.** -/
theorem NamesPaths.argument (hd : d.NamesPaths) (a : Text) : (d.argument a).NamesPaths := by
  unfold Draft.argument
  split
  · split
    · exact hd.long _ _
    · exact hd.long _ _
  · exact hd.letters
  · exact .go fun e he => hd.addFile? he

theorem NamesPaths.readFiles {o : Options} : ∀ {arguments : List Text} {d : Draft}, d.NamesPaths →
    d.readFiles arguments = .proceed o → o.input ≠ some [] ∧ o.output ≠ some []
  | [], d, hd, h => by
    cases h
    exact ⟨hd.input, hd.output⟩
  | path :: more, d, hd, h => by
    rw [Draft.readFiles] at h
    split at h
    · next he => exact (hd.addFile? he).readFiles h
    · cases h

theorem NamesPaths.read {o : Options} : ∀ {arguments : List Text} {d : Draft} {option : Option Valued}, d.NamesPaths →
    d.read option arguments = .proceed o → o.input ≠ some [] ∧ o.output ≠ some []
  | [], d, option, hd, h => by
    rw [Draft.read] at h
    split at h
    · cases h
    · cases h
      exact ⟨hd.input, hd.output⟩
  | a :: more, d, some option, hd, h => by
    rw [Draft.read] at h
    split at h
    · cases h
    · split at h
      · next he => exact (hd.set? he).read h
      · cases h
  | a :: more, d, none, hd, h => by
    rw [Draft.read] at h
    split at h
    · exact hd.readFiles h
    · have hnext := hd.argument a
      split at h
      · next hmore =>
        rw [hmore] at hnext
        cases hnext with | more he => exact he.read h
      · next hvalue =>
        rw [hvalue] at hnext
        cases hnext with | value he => exact he.read h
      · next hstop =>
        rw [hstop] at hnext
        cases hnext with | stop hi => exact absurd h (hi o)

end Draft

namespace Options

/-! ### Written options -/

/-- The options that stand alone, as they are written. -/
def switches (o : Options) : List Text :=
  (if o.json then ["--json".toList] else []) ++ (if o.list then ["--list".toList] else []) ++
    (if o.verbose then ["--verbose".toList] else [])

/-- The options as they are written on a command line. -/
def arguments (o : Options) : List Text :=
  o.switches ++ (o.output.map (Draft.assign "output")).toList ++
    ([Draft.assign "from" o.source] ++ [Draft.assign "to" o.target]) ++
    (o.input.map fun path => ["--".toList, path]).getD []

theorem reads_switches (o : Options) :
    Draft.Reads {} o.switches { json := o.json, list := o.list, verbose := o.verbose } := by
  unfold switches
  cases o.json <;> cases o.list <;> cases o.verbose <;> exact fun _ => rfl

theorem reads_output (o : Options) (h : o.output ≠ some []) {d : Draft} (hd : d.output = none) :
    d.Reads (o.output.map (Draft.assign "output")).toList { d with output := o.output } := by
  cases houtput : o.output with
  | none =>
    have hsame : { d with output := none } = d := by rw [← hd]
    rw [hsame]
    exact .refl d
  | some path =>
    have hne : path ≠ [] := fun heq => h (by rw [houtput, heq])
    have hname : ("output".toList, Valued.output) ∈ Draft.longValued := by decide
    exact Draft.reads_valued hname (by simp [Draft.set?, Draft.fillPath, Draft.fill, hd, hne])

theorem reads_languages (o : Options) {d : Draft} (hsource : d.source = none) (htarget : d.target = none) :
    d.Reads ([Draft.assign "from" o.source] ++ [Draft.assign "to" o.target])
      { d with source := o.source, target := o.target } := by
  have hfrom : ("from".toList, Valued.source) ∈ Draft.longValued := by decide
  have hto : ("to".toList, Valued.target) ∈ Draft.longValued := by decide
  have h : d.Reads [Draft.assign "from" o.source] { d with source := o.source } :=
    Draft.reads_valued hfrom (by simp [Draft.set?, Draft.fill, hsource])
  exact h.trans (Draft.reads_valued hto (by simp [Draft.set?, Draft.fill, htarget]))

end Options

namespace Invocation

/-- **Options that are written are read back.** -/
theorem ofArguments_arguments {o : Options} (hinput : o.input ≠ some []) (houtput : o.output ≠ some []) :
    ofArguments o.arguments = .proceed o := by
  have hall := (o.reads_switches.trans (o.reads_output houtput rfl)).trans (o.reads_languages rfl rfl)
  rw [ofArguments, Options.arguments, hall]
  obtain ⟨input, output, source, target, json, list, verbose⟩ := o
  cases input with
  | none => rfl
  | some path =>
    have hne : path ≠ [] := fun heq => hinput (by rw [heq])
    show Draft.readFiles _ [path] = _
    simp [Draft.readFiles, Draft.addFile?, Draft.fillPath, Draft.fill, hne, Draft.options]

/-- **The options that a command line can come to are those without an empty
path.** -/
theorem exists_arguments_iff (o : Options) :
    (∃ arguments, ofArguments arguments = .proceed o) ↔ o.input ≠ some [] ∧ o.output ≠ some [] := by
  constructor
  · rintro ⟨arguments, h⟩
    have hempty : Draft.NamesPaths {} := ⟨fun h => (nomatch h), fun h => (nomatch h)⟩
    exact hempty.read h
  · rintro ⟨hinput, houtput⟩
    exact ⟨o.arguments, ofArguments_arguments hinput houtput⟩

end Invocation
end Offside
