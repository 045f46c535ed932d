import MultiPartEvent.Cli.Options

/-!
# What a command line says

The flags `parseArgs` returns, told from the items that were written: a switch is on when it was
written, a valued flag has its last value, and a repeatable flag keeps all of them in order.  Each
is a property of taking in the items one after another, so each is an induction on the items.
-/

namespace MultiPartEvent

/-- The items a specification accepts: flags it has, and no single flag with two values. -/
structure AcceptedItems (spec : FlagSpec) (items : List CommandItem) : Prop where
  switches : ∀ name, .switch name ∈ items → name ∈ spec.switches
  valued : ∀ name value, .value name value ∈ items → name ∈ spec.valued
  single : ∀ name, spec.repeats name = false → (valuesOf name items).length ≤ 1

/-- The values of repeatable flags with their flags, in command-line order. -/
def repeatedPairs (spec : FlagSpec) (items : List CommandItem) : List (JsString × JsString) :=
  items.filterMap fun
    | .switch _ => none
    | .value name value => if spec.repeats name = true then some (name, value) else none

/-- The result is what the command and the items say. -/
structure ParsedAs (spec : FlagSpec) (command : Option JsString) (items : List CommandItem)
    (parsed : ParsedArgs) : Prop where
  command : parsed.command = command
  switches : ∀ name ∈ spec.switches,
    parsed.flags.get? name = if .switch name ∈ items then some .on else none
  single : ∀ name ∈ spec.valued, spec.repeats name = false →
    parsed.flags.get? name = (valuesOf name items).head?.map .text
  last : ∀ name ∈ spec.valued, spec.repeats name = true →
    parsed.flags.get? name = (valuesOf name items).getLast?.map .text
  others : ∀ name, name ∉ spec.switches → name ∉ spec.valued → parsed.flags.get? name = none
  repeated : ∀ name, parsed.repeated.get? name =
    if spec.repeats name = true ∧ valuesOf name items ≠ [] then some (valuesOf name items) else none
  sequence : parsed.sequence = repeatedPairs spec items

section Items

variable {spec : FlagSpec} {name : JsString} {items : List CommandItem}

/-- A switch has no value. -/
@[simp] lemma valuesOf_switch (other : JsString) :
    valuesOf name (.switch other :: items) = valuesOf name items := rfl

/-- A value belongs to its flag. -/
@[simp] lemma valuesOf_value (other value : JsString) :
    valuesOf name (.value other value :: items) =
      if other = name then value :: valuesOf name items else valuesOf name items := by
  unfold valuesOf
  rw [List.filterMap_cons]
  by_cases hother : other = name
  · simp [hother]
  · simp [hother]

/-- A flag has values when one was written. -/
lemma valuesOf_ne_nil_iff : valuesOf name items ≠ [] ↔ ∃ value, .value name value ∈ items := by
  induction items with
  | nil => simp [valuesOf]
  | cons item items ih =>
    cases item with
    | switch other => simp [ih]
    | value other value =>
      rw [valuesOf_value]
      by_cases hother : other = name
      · simp [hother]
      · simp [hother, Ne.symm hother, ih]

/-- The setting of a flag after one more switch. -/
lemma get?_take_switch (parsed : ParsedFlags) (given : JsString) :
    (parsed.take spec (.switch given)).flags.get? name =
      if name = given then some .on else parsed.flags.get? name :=
  InsertionMap.get?_set _ _ _ _

/-- The setting of a flag after one more value. -/
lemma get?_take_value (parsed : ParsedFlags) (given value : JsString) :
    (parsed.take spec (.value given value)).flags.get? name =
      if name = given then some (.text value) else parsed.flags.get? name := by
  simp only [ParsedFlags.take]
  cases spec.repeats given with
  | true => exact InsertionMap.get?_set _ _ _ _
  | false => exact InsertionMap.get?_set _ _ _ _

/-- The kept values of a flag after one more value. -/
lemma repeated_take_value (parsed : ParsedFlags) (given value : JsString) :
    (parsed.take spec (.value given value)).repeated.get? name =
      if spec.repeats given = true ∧ name = given then
        some ((parsed.repeated.get? name).getD [] ++ [value])
      else parsed.repeated.get? name := by
  simp only [ParsedFlags.take]
  cases spec.repeats given with
  | true =>
    simp only [if_true, true_and, InsertionMap.get?_set]
    by_cases hsame : name = given
    · rw [if_pos hsame, if_pos hsame, hsame]
    · rw [if_neg hsame, if_neg hsame]
  | false => simp

/-! ### Which items are taken in -/

/-- An empty command line is accepted. -/
lemma acceptedItems_nil (spec : FlagSpec) : AcceptedItems spec [] :=
  ⟨nofun, nofun, fun _ _ => Nat.zero_le 1⟩

/-- A switch is accepted when the specification has it. -/
lemma acceptedItems_switch_iff :
    AcceptedItems spec (.switch name :: items) ↔
      name ∈ spec.switches ∧ AcceptedItems spec items := by
  constructor
  · intro h
    exact ⟨h.switches name List.mem_cons_self,
      fun other hother => h.switches other (List.mem_cons_of_mem _ hother),
      fun other value hvalue => h.valued other value (List.mem_cons_of_mem _ hvalue), h.single⟩
  · intro h
    obtain ⟨hswitch, hitems⟩ := h
    constructor
    · intro other hother
      rcases List.mem_cons.mp hother with heq | hmem
      · cases heq
        exact hswitch
      · exact hitems.switches other hmem
    · intro other value hvalue
      rcases List.mem_cons.mp hvalue with heq | hmem
      · cases heq
      · exact hitems.valued other value hmem
    · exact hitems.single

/-- A value is accepted when the specification has its flag, and a single flag has no other. -/
lemma acceptedItems_value_iff {value : JsString} :
    AcceptedItems spec (.value name value :: items) ↔
      name ∈ spec.valued ∧ (spec.repeats name = false → valuesOf name items = []) ∧
        AcceptedItems spec items := by
  constructor
  · intro h
    refine ⟨h.valued name value List.mem_cons_self, ?_, ?_, ?_, ?_⟩
    · intro hsingle
      have hlength := h.single name hsingle
      rw [valuesOf_value, if_pos rfl, List.length_cons] at hlength
      exact List.length_eq_zero_iff.mp (by omega)
    · exact fun other hother => h.switches other (List.mem_cons_of_mem _ hother)
    · exact fun other given hgiven => h.valued other given (List.mem_cons_of_mem _ hgiven)
    · intro other hsingle
      have hlength := h.single other hsingle
      rw [valuesOf_value] at hlength
      split_ifs at hlength
      · rw [List.length_cons] at hlength
        omega
      · exact hlength
  · intro h
    obtain ⟨hvalued, hother, hitems⟩ := h
    constructor
    · intro other hswitch
      rcases List.mem_cons.mp hswitch with heq | hmem
      · cases heq
      · exact hitems.switches other hmem
    · intro other given hgiven
      rcases List.mem_cons.mp hgiven with heq | hmem
      · cases heq
        exact hvalued
      · exact hitems.valued other given hmem
    · intro other hsingle
      rw [valuesOf_value]
      split_ifs with hsame
      · subst hsame
        rw [hother hsingle]
        exact le_refl _
      · exact hitems.single other hsingle

/-- Items can be taken in when they are of the specification and no single flag gets a second
value, counting the one it has. -/
lemma allowsAll_iff (hdisjoint : Disjoint spec.valued spec.switches) (parsed : ParsedFlags) :
    parsed.AllowsAll spec items ↔
      AcceptedItems spec items ∧ ∀ name, spec.repeats name = false → valuesOf name items ≠ [] →
        parsed.flags.get? name = none := by
  induction items generalizing parsed with
  | nil =>
    refine iff_of_true trivial ⟨acceptedItems_nil spec, ?_⟩
    intro name _ hvalues
    exact absurd rfl hvalues
  | cons item items ih =>
    rw [ParsedFlags.AllowsAll, ih]
    cases item with
    | switch given =>
      rw [acceptedItems_switch_iff, and_assoc]
      apply and_congr_right
      intro (hswitch : given ∈ spec.switches)
      apply and_congr_right
      intro hitems
      apply forall₃_congr
      intro name hsingle hvalues
      -- a flag with values is no switch
      have hother : name ≠ given := by
        obtain ⟨value, hvalue⟩ := valuesOf_ne_nil_iff.mp hvalues
        intro hsame
        exact Finset.disjoint_left.mp hdisjoint (hitems.valued name value hvalue)
          (hsame ▸ hswitch)
      rw [get?_take_switch, if_neg hother]
    | value given value =>
      rw [acceptedItems_value_iff]
      constructor
      · intro h
        obtain ⟨⟨hvalued, _, hfree⟩, hitems, hnone⟩ := h
        refine ⟨⟨hvalued, ?_, hitems⟩, ?_⟩
        · intro hsingle
          by_contra hvalues
          have hset := hnone given hsingle hvalues
          rw [get?_take_value, if_pos rfl] at hset
          cases hset
        · intro name hsingle hvalues
          by_cases hsame : given = name
          · subst hsame
            exact hfree.resolve_left (by rw [hsingle]; exact Bool.false_ne_true)
          · rw [valuesOf_value, if_neg hsame] at hvalues
            have hset := hnone name hsingle hvalues
            rwa [get?_take_value, if_neg (Ne.symm hsame)] at hset
      · intro h
        obtain ⟨⟨hvalued, hlast, hitems⟩, hnone⟩ := h
        refine ⟨⟨hvalued, Finset.disjoint_left.mp hdisjoint hvalued, ?_⟩, hitems, ?_⟩
        · cases hrepeats : spec.repeats given with
          | true => exact Or.inl rfl
          | false =>
            apply Or.inr
            apply hnone given hrepeats
            rw [valuesOf_value, if_pos rfl]
            exact List.cons_ne_nil _ _
        · intro name hsingle hvalues
          have hother : given ≠ name := by
            intro hsame
            subst hsame
            exact hvalues (hlast hsingle)
          rw [get?_take_value, if_neg (Ne.symm hother)]
          apply hnone name hsingle
          rwa [valuesOf_value, if_neg hother]

/-! ### What taking them in gives -/

/-- The flag of a switch after the items. -/
lemma get?_takeAll_switch (hitems : AcceptedItems spec items) (hname : name ∉ spec.valued)
    (parsed : ParsedFlags) :
    (parsed.takeAll spec items).flags.get? name =
      if .switch name ∈ items then some .on else parsed.flags.get? name := by
  induction items generalizing parsed with
  | nil => rfl
  | cons item items ih =>
    rw [ParsedFlags.takeAll, List.foldl_cons, ← ParsedFlags.takeAll]
    cases item with
    | switch given =>
      rw [ih (acceptedItems_switch_iff.mp hitems).2, get?_take_switch]
      by_cases hsame : name = given
      · simp [hsame]
      · simp [hsame]
    | value given value =>
      obtain ⟨hvalued, _, hrest⟩ := acceptedItems_value_iff.mp hitems
      have hother : name ≠ given := fun hsame => hname (hsame ▸ hvalued)
      rw [ih hrest, get?_take_value, if_neg hother]
      simp

/-- The flag of a value after the items. -/
lemma get?_takeAll_value (hitems : AcceptedItems spec items) (hname : name ∉ spec.switches)
    (parsed : ParsedFlags) :
    (parsed.takeAll spec items).flags.get? name =
      ((valuesOf name items).getLast?.map FlagValue.text).or (parsed.flags.get? name) := by
  induction items generalizing parsed with
  | nil => rfl
  | cons item items ih =>
    rw [ParsedFlags.takeAll, List.foldl_cons, ← ParsedFlags.takeAll]
    cases item with
    | switch given =>
      obtain ⟨hswitch, hrest⟩ := acceptedItems_switch_iff.mp hitems
      have hother : name ≠ given := fun hsame => hname (hsame ▸ hswitch)
      rw [ih hrest, get?_take_switch, if_neg hother, valuesOf_switch]
    | value given value =>
      obtain ⟨_, _, hrest⟩ := acceptedItems_value_iff.mp hitems
      rw [ih hrest, get?_take_value, valuesOf_value]
      by_cases hsame : given = name
      · subst hsame
        rw [if_pos rfl, if_pos rfl, List.getLast?_cons]
        cases (valuesOf given items).getLast? with
        | none => rfl
        | some last => rfl
      · rw [if_neg (Ne.symm hsame), if_neg hsame]

/-- The values of a flag that are kept after the items. -/
lemma get?_takeAll_repeated (parsed : ParsedFlags) :
    (parsed.takeAll spec items).repeated.get? name =
      if spec.repeats name = true ∧ valuesOf name items ≠ [] then
        some ((parsed.repeated.get? name).getD [] ++ valuesOf name items)
      else parsed.repeated.get? name := by
  induction items generalizing parsed with
  | nil => simp [valuesOf, ParsedFlags.takeAll]
  | cons item items ih =>
    rw [ParsedFlags.takeAll, List.foldl_cons, ← ParsedFlags.takeAll, ih]
    cases item with
    | switch given => rfl
    | value given value =>
      rw [repeated_take_value, valuesOf_value]
      by_cases hsame : given = name
      · subst hsame
        by_cases hrepeats : spec.repeats given = true
        · by_cases hvalues : valuesOf given items = []
          · simp [hrepeats, hvalues]
          · simp [hrepeats, hvalues]
        · simp [hrepeats]
      · simp [hsame, Ne.symm hsame]

/-- The pairs kept after the items. -/
lemma sequence_takeAll (parsed : ParsedFlags) :
    (parsed.takeAll spec items).sequence = parsed.sequence ++ repeatedPairs spec items := by
  induction items generalizing parsed with
  | nil => simp [repeatedPairs, ParsedFlags.takeAll]
  | cons item items ih =>
    rw [ParsedFlags.takeAll, List.foldl_cons, ← ParsedFlags.takeAll, ih]
    cases item with
    | switch given => rfl
    | value given value =>
      simp only [ParsedFlags.take, repeatedPairs, List.filterMap_cons]
      cases spec.repeats given with
      | true => simp
      | false => simp

/-- The flag of a value after the items, when there was none before. -/
lemma get?_takeAll_noFlags (hitems : AcceptedItems spec items) (hname : name ∉ spec.switches) :
    (noFlags.takeAll spec items).flags.get? name = (valuesOf name items).getLast?.map .text := by
  rw [get?_takeAll_value hitems hname, show noFlags.flags.get? name = none from rfl, Option.or_none]

/-- The first and the last of at most one value. -/
lemma getLast?_eq_head? {α : Type} {list : List α} (h : list.length ≤ 1) :
    list.getLast? = list.head? := by
  rcases list with _ | ⟨first, _ | ⟨second, rest⟩⟩
  · rfl
  · rfl
  · simp at h

/-- Taking in accepted items before anything else gives what they say. -/
lemma parsedAs_takeAll (hitems : AcceptedItems spec items)
    (hdisjoint : Disjoint spec.valued spec.switches) (command : Option JsString) :
    ParsedAs spec command items { noFlags.takeAll spec items with command } := by
  constructor
  · rfl
  · intro name hname
    exact get?_takeAll_switch hitems (Finset.disjoint_right.mp hdisjoint hname) noFlags
  · intro name hname hsingle
    rw [← getLast?_eq_head? (hitems.single name hsingle)]
    exact get?_takeAll_noFlags hitems (Finset.disjoint_left.mp hdisjoint hname)
  · intro name hname _
    exact get?_takeAll_noFlags hitems (Finset.disjoint_left.mp hdisjoint hname)
  · intro name hswitch hvalued
    have hoff : CommandItem.switch name ∉ items := fun hmem => hswitch (hitems.switches name hmem)
    exact (get?_takeAll_switch hitems hvalued noFlags).trans (if_neg hoff)
  · intro name
    exact get?_takeAll_repeated noFlags
  · exact sequence_takeAll noFlags

end Items

/-- **The command line is parsed as written.**  Every rendering of accepted items, with a command or
without, is parsed as what it says; every other list of arguments is a usage error. -/
theorem parseArgs_as_written (spec : FlagSpec) (hdisjoint : Disjoint spec.valued spec.switches)
    (hplain : spec.NamesPlain) (argv : List JsString) :
    (∀ command items, Rendering command items argv → AcceptedItems spec items →
      ∃ parsed, parseArgs argv spec = .ok parsed ∧ ParsedAs spec command items parsed) ∧
    ((∀ command items, Rendering command items argv → ¬AcceptedItems spec items) →
      ∃ error : UsageError, parseArgs argv spec = .error error) := by
  have hfree : ∀ items name, spec.repeats name = false → valuesOf name items ≠ [] →
      noFlags.flags.get? name = none := fun _ _ _ _ => rfl
  constructor
  · intro command items hrendering hitems
    refine ⟨_, ?_, parsedAs_takeAll hitems hdisjoint command⟩
    have hallowed := (allowsAll_iff hdisjoint noFlags).mpr ⟨hitems, hfree items⟩
    rw [parseArgs, parseFrom_of_rendering hplain hrendering (fun _ => rfl) hallowed, Option.or_none]
  · intro hother
    cases hparsed : parseArgs argv spec with
    | error error => exact ⟨error, rfl⟩
    | ok parsed =>
      obtain ⟨command, items, hscanned⟩ := scanned_of_parseFrom hparsed
      have hitems := ((allowsAll_iff hdisjoint noFlags).mp hscanned.allowed).1
      exact absurd hitems (hother command items hscanned.rendering)

/-- A command behind a switch, before two values of one flag in either syntax. -/
theorem parseArgs_as_written_publish :
    let spec : FlagSpec := ⟨{js "message"}, {js "json"}, some {js "message"}⟩
    let argv := [js "--json", js "publish", js "--message=a=b", js "--message", js "c"]
    let items := [.switch (js "json"), .value (js "message") (js "a=b"),
      .value (js "message") (js "c")]
    Disjoint spec.valued spec.switches ∧ spec.NamesPlain ∧
      ∃ parsed, parseArgs argv spec = .ok parsed ∧
        ParsedAs spec (some (js "publish")) items parsed := by
  intro spec argv items
  have hdisjoint : Disjoint spec.valued spec.switches := by decide
  have hplain : spec.NamesPlain := by
    intro name hname
    rcases hname with hvalued | hswitch
    · rw [Finset.mem_singleton.mp hvalued]
      decide
    · rw [Finset.mem_singleton.mp hswitch]
      decide
  have hrendering : Rendering (some (js "publish")) items argv :=
    .switch _ (.command (by decide) (.inline _ _ (.separate _ (by decide) .nil)))
  have hitems : AcceptedItems spec items := by
    simp only [items, acceptedItems_switch_iff, acceptedItems_value_iff, acceptedItems_nil,
      and_true]
    refine ⟨by decide, by decide, ?_, by decide, fun _ => rfl⟩
    intro hsingle
    cases hsingle
  exact ⟨hdisjoint, hplain,
    (parseArgs_as_written spec hdisjoint hplain argv).1 _ items hrendering hitems⟩

end MultiPartEvent
