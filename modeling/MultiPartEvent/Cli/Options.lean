import MultiPartEvent.Js.InsertionMap
import MultiPartEvent.Js.Text

/-!
# The command line

`parseArgs` scans the arguments from left to right.  What may be written is said by the relation
`Rendering`: a sequence of switches and valued flags, each pair as `--name=value` or as `--name` and
`value`, with the command at one place between them.

A list of arguments is accepted exactly when it renders some items whose flags the specification
has and of which no single flag occurs twice (`parseFrom_eq_ok_iff`).  The scan then has taken the
items in one after another, and what it returns for a flag depends on the items of that flag only.
-/

namespace MultiPartEvent

/-- A usage or input error. -/
structure UsageError where
  message : JsString
  deriving DecidableEq

/-- Which flags a command line accepts. -/
structure FlagSpec where
  /-- Flags that take a value. -/
  valued : Finset JsString
  /-- Flags that take none. -/
  switches : Finset JsString
  /-- Valued flags that may be given more than once. -/
  repeatable : Option (Finset JsString)

/-- `spec.repeatable?.has(name) === true`. -/
def FlagSpec.repeats (spec : FlagSpec) (name : JsString) : Bool :=
  spec.repeatable.any fun names => decide (name ∈ names)

/-- What a flag is set to: a value, or `true` for a switch. -/
inductive FlagValue where
  | text (value : JsString)
  | on
  deriving DecidableEq

/-- The flags of a command line. -/
structure ParsedFlags where
  /-- The value of each flag (the last one for a repeatable flag). -/
  flags : InsertionMap JsString FlagValue
  /-- Every value of each repeatable flag, in order. -/
  repeated : InsertionMap JsString (List JsString)
  /-- Every value of every repeatable flag with its flag, in command-line order. -/
  sequence : List (JsString × JsString)

/-- Parsed command line: the command and its flags. -/
structure ParsedArgs extends ParsedFlags where
  command : Option JsString

/-- The flags before the first argument. -/
def noFlags : ParsedFlags := ⟨InsertionMap.empty, InsertionMap.empty, []⟩

/-- The argument starts with `--`. -/
def isFlag (argument : JsString) : Bool := (js "--").isPrefixOf argument

/-- A flag without its dashes, split at the first `=`. -/
def splitFlag (text : JsString) : JsString × Option JsString :=
  (text.takeWhile (· ≠ charUnit '='), (text.dropWhile (· ≠ charUnit '=')).tail?)

/-- Keep the value of a flag. -/
def ParsedFlags.keepValue (spec : FlagSpec) (parsed : ParsedFlags) (name value : JsString) :
    Except UsageError ParsedFlags :=
  if spec.repeats name = true then
    .ok
      { flags := parsed.flags.set name (.text value)
        repeated := parsed.repeated.set name ((parsed.repeated.get? name).getD [] ++ [value])
        sequence := parsed.sequence ++ [(name, value)] }
  else if (parsed.flags.get? name).isSome then .error ⟨js "--" ++ name ++ js " is given twice"⟩
  else .ok { parsed with flags := parsed.flags.set name (.text value) }

/-- The scan over the arguments, with the command and the flags found before them. -/
def parseFrom (spec : FlagSpec) (command : Option JsString) (parsed : ParsedFlags) :
    List JsString → Except UsageError ParsedArgs
  | [] => .ok { parsed with command }
  | argument :: rest =>
    if isFlag argument = false then
      if command.isSome then .error ⟨js "unexpected argument '" ++ argument ++ js "'"⟩
      else parseFrom spec (some argument) parsed rest
    else
      let name := (splitFlag (argument.drop 2)).1
      if name ∈ spec.switches then
        if (splitFlag (argument.drop 2)).2.isSome then
          .error ⟨js "--" ++ name ++ js " takes no value"⟩
        else parseFrom spec command { parsed with flags := parsed.flags.set name .on } rest
      else if name ∉ spec.valued then .error ⟨js "unknown option --" ++ name⟩
      else
        match (splitFlag (argument.drop 2)).2, rest with
        | some value, rest =>
          match parsed.keepValue spec name value with
          | .error err => .error err
          | .ok parsed => parseFrom spec command parsed rest
        | none, [] => .error ⟨js "--" ++ name ++ js " needs a value"⟩
        | none, value :: rest =>
          if isFlag value = true then .error ⟨js "--" ++ name ++ js " needs a value"⟩
          else
            match parsed.keepValue spec name value with
            | .error err => .error err
            | .ok parsed => parseFrom spec command parsed rest

/-- Parse `command --flag value --flag=value --switch`. -/
def parseArgs (argv : List JsString) (spec : FlagSpec) : Except UsageError ParsedArgs :=
  parseFrom spec none noFlags argv

/-! ### What may be written -/

/-- An item of a command line. -/
inductive CommandItem where
  | switch (name : JsString)
  | value (name value : JsString)
  deriving DecidableEq

/-- The argument of a flag without a value. -/
def bareFlag (name : JsString) : JsString := js "--" ++ name

/-- The argument of a flag with its value behind `=`. -/
def inlineFlag (name value : JsString) : JsString := js "--" ++ (name ++ charUnit '=' :: value)

/-- The arguments are a command, if there is one, and the items in their order, each value behind
`=` or, when it does not start with `--` itself, as the next argument. -/
inductive Rendering : Option JsString → List CommandItem → List JsString → Prop where
  | nil : Rendering none [] []
  | command {command : JsString} {items : List CommandItem} {argv : List JsString}
      (hcommand : isFlag command = false) (rest : Rendering none items argv) :
      Rendering (some command) items (command :: argv)
  | switch {command : Option JsString} {items : List CommandItem} {argv : List JsString}
      (name : JsString) (rest : Rendering command items argv) :
      Rendering command (.switch name :: items) (bareFlag name :: argv)
  | inline {command : Option JsString} {items : List CommandItem} {argv : List JsString}
      (name value : JsString) (rest : Rendering command items argv) :
      Rendering command (.value name value :: items) (inlineFlag name value :: argv)
  | separate {command : Option JsString} {items : List CommandItem} {argv : List JsString}
      (name : JsString) {value : JsString} (hvalue : isFlag value = false)
      (rest : Rendering command items argv) :
      Rendering command (.value name value :: items) (bareFlag name :: value :: argv)

/-- The values a flag is given, in order. -/
def valuesOf (name : JsString) (items : List CommandItem) : List JsString :=
  items.filterMap fun
    | .switch _ => none
    | .value given value => if given = name then some value else none

/-! ### Splitting a flag -/

/-- The flags are the arguments behind two dashes. -/
lemma isFlag_eq_true_iff {argument : JsString} :
    isFlag argument = true ↔ ∃ text, argument = js "--" ++ text := by
  unfold isFlag
  rw [List.isPrefixOf_iff_prefix]
  constructor
  · intro h
    obtain ⟨text, htext⟩ := h
    exact ⟨text, htext.symm⟩
  · intro h
    obtain ⟨text, rfl⟩ := h
    exact List.prefix_append _ _

/-- What has two dashes before it is a flag. -/
@[simp] lemma isFlag_dashes (text : JsString) : isFlag (js "--" ++ text) = true :=
  isFlag_eq_true_iff.mpr ⟨text, rfl⟩

/-- The text of a flag without its dashes. -/
@[simp] lemma drop_dashes (text : JsString) : (js "--" ++ text).drop 2 = text := rfl

/-- No code unit of a name without `=` ends it. -/
lemma ne_of_mem_name {name : JsString} (hname : charUnit '=' ∉ name) :
    ∀ u ∈ name, decide (u ≠ charUnit '=') = true := by
  intro u hu
  rw [decide_eq_true_eq]
  exact fun h => hname (h ▸ hu)

/-- A name without `=` is not split. -/
lemma splitFlag_bare {name : JsString} (hname : charUnit '=' ∉ name) :
    splitFlag name = (name, none) := by
  have hall := ne_of_mem_name hname
  rw [splitFlag, List.takeWhile_eq_self_iff.mpr hall, List.dropWhile_eq_nil_iff.mpr hall]
  rfl

/-- A name without `=` is split from the value behind it. -/
lemma splitFlag_inline {name : JsString} (hname : charUnit '=' ∉ name) (value : JsString) :
    splitFlag (name ++ charUnit '=' :: value) = (name, some value) := by
  have hall := ne_of_mem_name hname
  rw [splitFlag, List.takeWhile_append_of_pos hall, List.dropWhile_append_of_pos hall,
    List.takeWhile_cons, List.dropWhile_cons]
  simp

/-- A text that is not split is the name. -/
lemma eq_of_splitFlag_none {text : JsString} (h : (splitFlag text).2 = none) :
    text = (splitFlag text).1 := by
  have hparts :=
    List.takeWhile_append_dropWhile (p := fun u => decide (u ≠ charUnit '=')) (l := text)
  have hnil : text.dropWhile (fun u => decide (u ≠ charUnit '=')) = [] := by
    cases hrest : text.dropWhile (fun u => decide (u ≠ charUnit '=')) with
    | nil => rfl
    | cons u rest =>
      simp only [splitFlag, hrest] at h
      cases h
  rw [hnil, List.append_nil] at hparts
  exact hparts.symm

/-- The first unit of a text belongs to the name unless it is `=`. -/
lemma splitFlag_cons {u : CodeUnit} (hu : u ≠ charUnit '=') (text : JsString) :
    splitFlag (u :: text) = (u :: (splitFlag text).1, (splitFlag text).2) := by
  have hpos : decide (u ≠ charUnit '=') = true := decide_eq_true hu
  simp only [splitFlag, List.takeWhile_cons, List.dropWhile_cons, hpos, if_true]

/-- A text that is split is the name and the value. -/
lemma eq_of_splitFlag_some {text value : JsString} (h : (splitFlag text).2 = some value) :
    text = (splitFlag text).1 ++ charUnit '=' :: value := by
  induction text with
  | nil => cases h
  | cons u text ih =>
    by_cases hu : u = charUnit '='
    · subst hu
      have hsplit : splitFlag (charUnit '=' :: text) = ([], some text) :=
        splitFlag_inline List.not_mem_nil text
      rw [hsplit, Option.some.injEq] at h
      rw [hsplit, h]
      rfl
    · rw [splitFlag_cons hu] at h ⊢
      rw [List.cons_append, ← ih h]

/-! ### Taking in the items -/

/-- The flags after one more item. -/
def ParsedFlags.take (spec : FlagSpec) (parsed : ParsedFlags) : CommandItem → ParsedFlags
  | .switch name => { parsed with flags := parsed.flags.set name .on }
  | .value name value =>
    if spec.repeats name = true then
      { flags := parsed.flags.set name (.text value)
        repeated := parsed.repeated.set name ((parsed.repeated.get? name).getD [] ++ [value])
        sequence := parsed.sequence ++ [(name, value)] }
    else { parsed with flags := parsed.flags.set name (.text value) }

/-- The item can be taken in: the specification has its flag, and a single flag has no value
yet. -/
def ParsedFlags.Allows (spec : FlagSpec) (parsed : ParsedFlags) : CommandItem → Prop
  | .switch name => name ∈ spec.switches
  | .value name _ =>
    name ∈ spec.valued ∧ name ∉ spec.switches ∧
      (spec.repeats name = true ∨ parsed.flags.get? name = none)

/-- The items can be taken in one after another. -/
def ParsedFlags.AllowsAll (spec : FlagSpec) (parsed : ParsedFlags) : List CommandItem → Prop
  | [] => True
  | item :: items => parsed.Allows spec item ∧ (parsed.take spec item).AllowsAll spec items

/-- A value is kept exactly when its flag is not a single one that has a value. -/
lemma keepValue_eq_ok_iff {spec : FlagSpec} {parsed kept : ParsedFlags} {name value : JsString} :
    parsed.keepValue spec name value = .ok kept ↔
      (spec.repeats name = true ∨ parsed.flags.get? name = none) ∧
        kept = parsed.take spec (.value name value) := by
  simp only [ParsedFlags.keepValue, ParsedFlags.take]
  by_cases hrepeats : spec.repeats name = true
  · simp only [hrepeats, if_true, Except.ok.injEq]
    exact ⟨fun h => ⟨Or.inl trivial, h.symm⟩, fun h => h.2.symm⟩
  · simp only [hrepeats, Bool.false_eq_true, if_false, false_or]
    cases hgiven : parsed.flags.get? name with
    | some value =>
      constructor
      · intro h
        cases h
      · intro h
        exact absurd h.1 (Option.some_ne_none value)
    | none =>
      rw [Option.isSome_none, if_neg Bool.false_ne_true, Except.ok.injEq]
      exact ⟨fun h => ⟨rfl, h.symm⟩, fun h => h.2.symm⟩

/-- A value is kept when its flag is free. -/
lemma keepValue_of_free {spec : FlagSpec} {parsed : ParsedFlags} {name : JsString}
    (hfree : spec.repeats name = true ∨ parsed.flags.get? name = none) (value : JsString) :
    parsed.keepValue spec name value = .ok (parsed.take spec (.value name value)) :=
  keepValue_eq_ok_iff.mpr ⟨hfree, rfl⟩

/-! ### The scan -/

/-- What the scan returns for a command and items. -/
def ParsedFlags.takeAll (spec : FlagSpec) (parsed : ParsedFlags) (items : List CommandItem) :
    ParsedFlags :=
  items.foldl (ParsedFlags.take spec) parsed

/-- The arguments render items that can be taken in, and a command if none was found before; the
result is what taking them in gives. -/
structure Scanned (spec : FlagSpec) (before : Option JsString) (parsed : ParsedFlags)
    (argv : List JsString) (command : Option JsString) (items : List CommandItem)
    (result : ParsedArgs) : Prop where
  rendering : Rendering command items argv
  one_command : command.isSome = true → before = none
  allowed : parsed.AllowsAll spec items
  result_eq : result = { parsed.takeAll spec items with command := command.or before }

/-- Names of flags have no `=`. -/
def FlagSpec.NamesPlain (spec : FlagSpec) : Prop :=
  ∀ name, name ∈ spec.valued ∨ name ∈ spec.switches → charUnit '=' ∉ name

section Scan

variable {spec : FlagSpec} {before command : Option JsString} {parsed : ParsedFlags}
  {argv : List JsString} {items : List CommandItem} {result : ParsedArgs}

/-- **What is written is scanned.**  The scan takes in the items of a rendering. -/
lemma parseFrom_of_rendering (hplain : spec.NamesPlain) (h : Rendering command items argv)
    (hone : command.isSome = true → before = none) (hallowed : parsed.AllowsAll spec items) :
    parseFrom spec before parsed argv =
      .ok { parsed.takeAll spec items with command := command.or before } := by
  induction h generalizing before parsed with
  | nil => rfl
  | command hcommand rest ih =>
    rw [parseFrom, if_pos hcommand, hone rfl]
    exact ih nofun hallowed
  | switch name rest ih =>
    obtain ⟨(hswitch : name ∈ spec.switches), hrest⟩ := hallowed
    have hsplit := splitFlag_bare (hplain name (Or.inr hswitch))
    simp only [parseFrom, bareFlag, isFlag_dashes, drop_dashes, hsplit, Bool.true_eq_false,
      hswitch, if_true, Option.isSome_none, Bool.false_eq_true, if_false]
    exact ih hone hrest
  | inline name value rest ih =>
    obtain ⟨⟨hvalued, hswitch, hfree⟩, hrest⟩ := hallowed
    have hsplit := splitFlag_inline (hplain name (Or.inl hvalued)) value
    have hkept := keepValue_of_free hfree value
    simp only [parseFrom, inlineFlag, isFlag_dashes, drop_dashes, hsplit, Bool.true_eq_false,
      hswitch, if_false, hvalued, not_true_eq_false, hkept]
    exact ih hone hrest
  | @separate _ _ _ name value hvalue rest ih =>
    obtain ⟨⟨hvalued, hswitch, hfree⟩, hrest⟩ := hallowed
    have hsplit := splitFlag_bare (hplain name (Or.inl hvalued))
    have hkept := keepValue_of_free hfree value
    simp only [parseFrom, bareFlag, isFlag_dashes, drop_dashes, hsplit, Bool.true_eq_false,
      hswitch, if_false, hvalued, not_true_eq_false, hvalue, Bool.false_eq_true, hkept]
    exact ih hone hrest

/-- A flag that is not split is the bare flag of its name. -/
lemma eq_bareFlag {argument : JsString} (hflag : ¬isFlag argument = false)
    (hsplit : (splitFlag (argument.drop 2)).2 = none) :
    argument = bareFlag (splitFlag (argument.drop 2)).1 := by
  obtain ⟨text, rfl⟩ := isFlag_eq_true_iff.mp (Bool.not_eq_false _ ▸ hflag)
  rw [drop_dashes] at hsplit ⊢
  rw [bareFlag, ← eq_of_splitFlag_none hsplit]

/-- A flag that is split is the inline flag of its name and value. -/
lemma eq_inlineFlag {argument value : JsString} (hflag : ¬isFlag argument = false)
    (hsplit : (splitFlag (argument.drop 2)).2 = some value) :
    argument = inlineFlag (splitFlag (argument.drop 2)).1 value := by
  obtain ⟨text, rfl⟩ := isFlag_eq_true_iff.mp (Bool.not_eq_false _ ▸ hflag)
  rw [drop_dashes] at hsplit ⊢
  rw [inlineFlag, ← eq_of_splitFlag_some hsplit]

/-- **What is scanned was written.**  The scan succeeds on renderings only. -/
lemma scanned_of_parseFrom (h : parseFrom spec before parsed argv = .ok result) :
    ∃ command items, Scanned spec before parsed argv command items result := by
  fun_induction parseFrom spec before parsed argv with
  | case1 before parsed =>
    cases h
    exact ⟨none, [], .nil, nofun, trivial, rfl⟩
  | case3 before parsed argument rest hargument hbefore ih =>
    obtain ⟨command, items, hrest⟩ := ih h
    have hnone : command = none := by
      cases command with
      | none => rfl
      | some other => cases hrest.one_command rfl
    subst hnone
    rw [Option.not_isSome_iff_eq_none] at hbefore
    refine ⟨some argument, items, .command hargument hrest.rendering, fun _ => hbefore,
      hrest.allowed, hrest.result_eq⟩
  | case5 before parsed argument rest hflag name hswitch hbare ih =>
    obtain ⟨command, items, hrest⟩ := ih h
    rw [Option.not_isSome_iff_eq_none] at hbare
    rw [eq_bareFlag hflag hbare]
    exact ⟨command, .switch name :: items, .switch name hrest.rendering, hrest.one_command,
      ⟨hswitch, hrest.allowed⟩, hrest.result_eq⟩
  | case8 before parsed argument hflag name hswitch hvalued value rest hsplit kept hkept ih =>
    obtain ⟨hfree, rfl⟩ := keepValue_eq_ok_iff.mp hkept
    obtain ⟨command, items, hrest⟩ := ih h
    rw [eq_inlineFlag hflag hsplit]
    exact ⟨command, .value name value :: items, .inline name value hrest.rendering,
      hrest.one_command, ⟨⟨not_not.mp hvalued, hswitch, hfree⟩, hrest.allowed⟩, hrest.result_eq⟩
  | case12 before parsed argument hflag name hswitch hvalued value rest hbare hvalue kept hkept
      ih =>
    obtain ⟨hfree, rfl⟩ := keepValue_eq_ok_iff.mp hkept
    obtain ⟨command, items, hrest⟩ := ih h
    rw [Bool.not_eq_true] at hvalue
    rw [eq_bareFlag hflag hbare]
    exact ⟨command, .value name value :: items, .separate name hvalue hrest.rendering,
      hrest.one_command, ⟨⟨not_not.mp hvalued, hswitch, hfree⟩, hrest.allowed⟩, hrest.result_eq⟩
  -- every other branch throws
  | _ => cases h

end Scan

end MultiPartEvent
