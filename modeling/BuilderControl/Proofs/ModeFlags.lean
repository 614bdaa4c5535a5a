import BuilderControl.Proofs.RecordedFlags

/-!
# Flags that shape a mode

The mode of an invocation is decided by the flags that are given and by nothing else: neither by the
defaults of flags nor by flags that are declared and not given.  The first value of a flag counts,
and a flag with values of another type than its own is refused.

## Key results

- `Declarations.Shapes`: what becomes of the flags that were given
- `Declarations.Recorded.shapes`: the mode of what is recorded
- `mode_of_given`: the mode of the words of a command
-/

namespace BuilderControl.CommandLine

/-- The flags that are looked at before a flag. -/
def ModeFlag.earlier : ModeFlag → List ModeFlag
  | dryRun => []
  | output => [dryRun]
  | wait => [dryRun, output]

/-- The mode of the flags that were given: the first value of each of them counts. -/
def Given.mode (given : List Given) : Mode where
  dryRun := (given.find? (·.flag = .dryRun)).any isOn
  output := ((given.find? (·.flag = .output)).bind value).filter (· ≠ "")
  wait := (given.find? (·.flag = .wait)).any isOn

namespace Declarations

/-- A flag was given, and its values are of another type than they have to be. -/
def Offends (d : Declarations) (given : List Given) (f : ModeFlag) : Prop :=
  ∃ g ∈ given, g.flag = f ∧ ∃ kind, d.kind? f = some kind ∧ kind.type ≠ f.expected

/-- What becomes of the flags that were given. -/
structure Shapes (d : Declarations) (given : List Given) (result : Except InvalidRequest Mode) :
    Prop where
  refused_iff : (∃ e, result = .error e) ↔ ∃ f, d.Offends given f
  first_offender : ∀ f kind, d.Offends given f → d.kind? f = some kind →
    (∀ f' ∈ f.earlier, ¬d.Offends given f') →
    result = .error (.wrongFlagType f.name f.expected kind.type)
  mode : (∀ f, ¬d.Offends given f) → result = .ok (Given.mode given)

/-- Of the flags with values of another type there is a first one. -/
theorem exists_first_offender {d : Declarations} {given : List Given}
    (h : ∃ f, d.Offends given f) : ∃ f kind, d.Offends given f ∧ d.kind? f = some kind ∧
      ∀ f' ∈ f.earlier, ¬d.Offends given f' := by
  have hfirst : ∀ f, d.Offends given f → (∀ f' ∈ f.earlier, ¬d.Offends given f') →
      ∃ f kind, d.Offends given f ∧ d.kind? f = some kind ∧
        ∀ f' ∈ f.earlier, ¬d.Offends given f' := by
    intro f hf hearlier
    obtain ⟨-, -, -, kind, hkind, -⟩ := id hf
    exact ⟨f, kind, hf, hkind, hearlier⟩
  -- The flags are looked at one after the other
  by_cases hdryRun : d.Offends given .dryRun
  · exact hfirst _ hdryRun (by simp [ModeFlag.earlier])
  · by_cases houtput : d.Offends given .output
    · exact hfirst _ houtput (by simpa [ModeFlag.earlier] using hdryRun)
    · obtain ⟨f, hf⟩ := h
      cases f with
      | dryRun => exact absurd hf hdryRun
      | output => exact absurd hf houtput
      | wait => exact hfirst _ hf (by simpa [ModeFlag.earlier] using ⟨hdryRun, houtput⟩)

/-- The same flags have one result. -/
theorem Shapes.unique {d : Declarations} {given : List Given}
    {result result' : Except InvalidRequest Mode} (h : d.Shapes given result)
    (h' : d.Shapes given result') : result' = result := by
  by_cases hoffends : ∃ f, d.Offends given f
  · obtain ⟨f, kind, hf, hkind, hearlier⟩ := exists_first_offender hoffends
    rw [h.first_offender f kind hf hkind hearlier, h'.first_offender f kind hf hkind hearlier]
  · rw [not_exists] at hoffends
    rw [h.mode hoffends, h'.mode hoffends]

/-- What is declared of flags that were not given does not matter. -/
theorem Shapes.congr {d d' : Declarations} {given : List Given}
    (hsame : ∀ g ∈ given, d'.kind? g.flag = d.kind? g.flag)
    {result : Except InvalidRequest Mode} (h : d'.Shapes given result) : d.Shapes given result := by
  -- Whether a flag offends is up to those that were given
  have hoffends : ∀ f, d.Offends given f ↔ d'.Offends given f := by
    intro f
    refine exists_congr fun g => and_congr_right fun hg => and_congr_right fun hf => ?_
    rw [← hf, hsame g hg]
  refine ⟨by simp only [hoffends, h.refused_iff], fun f kind hf hkind hearlier => ?_, ?_⟩
  · simp only [hoffends] at hf hearlier
    obtain ⟨g, hg, hflag, -⟩ := id hf
    refine h.first_offender f kind hf ?_ hearlier
    rw [← hflag, hsame g hg, hflag, hkind]
  · simp only [hoffends]
    exact h.mode

/-! ## Flags that are found -/

/-- A default does not count as given. -/
theorem flag_of_default {c : CommandSpec} {found : Matches} {id : String}
    (h : found.find? id = none) (name : String) (expected : FlagType) :
    (c.complete found).flag id name expected = .ok none := by
  rw [Matches.flag, CommandSpec.find?_complete, h, Option.none_or]
  -- What stands for a missing flag is recorded as a default, which is no value of the flag
  cases hdefault : c.default? id with
  | none => rfl
  | some m =>
    have hm : m ∈ c.args.filterMap Arg.defaultMatch? := List.mem_of_find?_eq_some hdefault
    obtain ⟨a, -, hmatch⟩ := List.mem_filterMap.1 hm
    obtain ⟨text, -, hvalue⟩ := Option.bind_eq_some_iff.1 hmatch
    obtain ⟨value, -, rfl⟩ := Option.map_eq_some_iff.1 hvalue
    rfl

/-- A flag that was given has the value that is shown, or is refused by the type of its values. -/
theorem flag_of_shows {c : CommandSpec} {found : Matches} {f : ModeFlag} {m : Match}
    {kind : FlagKind} {g : Given} (hfind : found.find? f.id = some m) (hm : m.Shows kind g)
    (hg : g.flag = f) : (c.complete found).flag f.id f.name f.expected =
      if kind.type = f.expected then .ok g.read
      else .error (.wrongFlagType f.name f.expected kind.type) := by
  rw [Matches.flag, CommandSpec.find?_complete, hfind, Option.some_or]
  simp only [hm.explicit, hm.type]
  by_cases htype : kind.type = f.expected
  · rw [if_pos htype, ← hm.first (by rw [hg, htype])]
    simp [htype]
  · simp [htype]

section Recorded

variable {d : Declarations} {given : List Given} {found : Matches} (h : d.Recorded given found)
  (c : CommandSpec) {f : ModeFlag}
include h

/-- A flag with values of another type is refused. -/
theorem Recorded.flag_of_offends {kind : FlagKind} (hf : d.Offends given f)
    (hkind : d.kind? f = some kind) : (c.complete found).flag f.id f.name f.expected =
      .error (.wrongFlagType f.name f.expected kind.type) := by
  obtain ⟨g, hg, hflag, kind', hkind', htype⟩ := hf
  cases hkind.symm.trans hkind'
  have hrel := h f
  generalize hgiven : given.find? (·.flag = f) = first at hrel
  generalize hfind : found.find? f.id = m at hrel
  -- It was given, so something was found
  cases hrel with
  | none => simpa [hflag] using List.find?_eq_none.1 hgiven g hg
  | some hshows =>
    obtain ⟨kind', hkind', hshows⟩ := hshows
    cases hkind.symm.trans hkind'
    rw [flag_of_shows hfind hshows (by simpa using List.find?_some hgiven), if_neg htype]

/-- A flag of the right type has the value that was given first, if any. -/
theorem Recorded.flag_of_not_offends (hf : ¬d.Offends given f) :
    (c.complete found).flag f.id f.name f.expected =
      .ok ((given.find? (·.flag = f)).bind Given.read) := by
  have hrel := h f
  generalize hgiven : given.find? (·.flag = f) = first at hrel
  generalize hfind : found.find? f.id = m at hrel
  -- If it was not given, at most its default is found
  cases hrel with
  | none => exact flag_of_default hfind _ _
  | some hshows =>
    rename_i g m
    obtain ⟨kind, hkind, hshows⟩ := hshows
    have hflag : g.flag = f := by simpa using List.find?_some hgiven
    have htype : kind.type = f.expected := by
      by_contra hne
      exact hf ⟨g, List.mem_of_find?_eq_some hgiven, hflag, kind, hkind, hne⟩
    rw [flag_of_shows hfind hshows hflag, if_pos htype]
    rfl

omit h in
/-- Flags that have values of the type that they have to be of make up a mode. -/
private theorem ofFlags_read (given : List Given) :
    Mode.ofFlags ((given.find? (·.flag = .dryRun)).bind Given.read = some (.truth true))
      (match (given.find? (·.flag = .output)).bind Given.read with
        | some (.text format) => some format
        | _ => none)
      ((given.find? (·.flag = .wait)).bind Given.read = some (.truth true)) = Given.mode given := by
  -- The two flags that are on or off read a truth, the format a text
  have hon : ∀ f : ModeFlag, f.expected = .bool →
      decide ((given.find? (·.flag = f)).bind Given.read = some (.truth true)) =
        (given.find? (·.flag = f)).any Given.isOn := by
    intro f hf
    cases hfind : given.find? (·.flag = f) with
    | none => rfl
    | some g =>
      have hflag : g.flag = f := by simpa using List.find?_some hfind
      rw [Option.bind_some, Option.any_some, Given.read, hflag]
      cases f with
      | output => cases hf
      | dryRun | wait => simp
  have hvalue : (match (given.find? (·.flag = .output)).bind Given.read with
      | some (.text format) => some format
      | _ => none) = (given.find? (·.flag = .output)).bind Given.value := by
    cases hfind : given.find? (·.flag = .output) with
    | none => rfl
    | some g =>
      have hflag : g.flag = .output := by simpa using List.find?_some hfind
      rw [Option.bind_some, Option.bind_some, Given.read, hflag]
      cases g.value <;> rfl
  rw [hon _ rfl, hon _ rfl, hvalue]
  rfl

/-- What a command makes of the flags that it recorded. -/
theorem Recorded.shapes : d.Shapes given (c.complete found).mode := by
  have hok : ∀ f, ¬d.Offends given f → (c.complete found).flag f.id f.name f.expected =
      .ok ((given.find? (·.flag = f)).bind Given.read) := fun f => h.flag_of_not_offends c
  have herror : ∀ f kind, d.Offends given f → d.kind? f = some kind →
      (∀ f' ∈ f.earlier, ¬d.Offends given f') →
      (c.complete found).mode = .error (.wrongFlagType f.name f.expected kind.type) := by
    intro f kind hf hkind hearlier
    have hflag := h.flag_of_offends c hf hkind
    rw [Matches.mode]
    -- What is looked at before is of the right type, so the mode is not refused earlier
    cases f with
    | dryRun =>
      simp only [ModeFlag.id, ModeFlag.name, ModeFlag.expected] at hflag
      rw [hflag]
      rfl
    | output =>
      have hdryRun := hok .dryRun (hearlier _ (by simp [ModeFlag.earlier]))
      simp only [ModeFlag.id, ModeFlag.name, ModeFlag.expected] at hflag hdryRun
      rw [hdryRun, hflag]
      rfl
    | wait =>
      have hdryRun := hok .dryRun (hearlier _ (by simp [ModeFlag.earlier]))
      have houtput := hok .output (hearlier _ (by simp [ModeFlag.earlier]))
      simp only [ModeFlag.id, ModeFlag.name, ModeFlag.expected] at hflag hdryRun houtput
      rw [hdryRun, houtput, hflag]
      rfl
  have hmode : (∀ f, ¬d.Offends given f) → (c.complete found).mode = .ok (Given.mode given) := by
    intro hnone
    have hdryRun := hok .dryRun (hnone _)
    have houtput := hok .output (hnone _)
    have hwait := hok .wait (hnone _)
    simp only [ModeFlag.id, ModeFlag.name, ModeFlag.expected] at hdryRun houtput hwait
    rw [Matches.mode, hdryRun, houtput, hwait, ← ofFlags_read]
    rfl
  refine ⟨⟨fun hrefused => ?_, fun hoffends => ?_⟩, herror, hmode⟩
  · obtain ⟨e, he⟩ := hrefused
    by_contra hnone
    rw [hmode (not_exists.1 hnone)] at he
    cases he
  · obtain ⟨f, kind, hf, hkind, hearlier⟩ := exists_first_offender hoffends
    exact ⟨_, herror f kind hf hkind hearlier⟩

end Recorded

/-! ## Words of commands -/

/-- The words that a command takes give flags, and these decide its mode. -/
theorem exists_shapes {c : CommandSpec} {d : Declarations} (hc : c.Declares d) {version : String}
    {words : List String} {parsed : Parsed} (h : parse c version words = .ok parsed) :
    ∃ given, d.Gives words given ∧ d.Shapes given parsed.found.mode := by
  rw [parse, parseFrom_of_leaf hc.leaf] at h
  obtain ⟨s, hs, hfinish⟩ := Except.bind_ok_iff.1 h
  obtain ⟨found, hfound, rfl⟩ := Except.map_ok_iff.1 hfinish
  obtain ⟨u, hu, -, rfl⟩ := (ParseState.finish_ok_iff hc.leaf).1 hfound
  have hplace : (Place.mk [c.name] c version).command.Declares d := hc
  obtain ⟨v, given, hv, hgives, hrecorded⟩ :=
    ParseState.explains_of_takeAll hplace words rfl rfl (Except.bind_ok_iff.2 ⟨s, hs, hu⟩)
  cases hv
  -- Nothing is recorded before the first word
  have hnothing : d.Recorded [] [] := fun f => .none
  exact ⟨given, hgives, (hrecorded [] hnothing).shapes c⟩

end Declarations

/-- The mode of an invocation is decided by the flags that are given in its words.  It is refused if
one of them has values of another type than it has to have, and made up of their first values
otherwise.  Another command that takes the same words comes to the same, whatever its defaults are
and whichever flags that were not given it declares, if those that were given are declared in the
same way. -/
theorem mode_of_given {c : CommandSpec} {d : Declarations} (hc : c.Declares d) {version : String}
    {words : List String} {parsed : Parsed} (h : parse c version words = .ok parsed) :
    ∃ given, d.Gives words given ∧ d.Shapes given parsed.found.mode ∧
      ∀ (c' : CommandSpec) (d' : Declarations) (version' : String) (parsed' : Parsed),
        c'.Declares d' → d.Agree d' given → parse c' version' words = .ok parsed' →
        parsed'.found.mode = parsed.found.mode := by
  obtain ⟨given, hgives, hshapes⟩ := Declarations.exists_shapes hc h
  refine ⟨given, hgives, hshapes, fun c' d' version' parsed' hc' hagree h' => ?_⟩
  obtain ⟨given', hgives', hshapes'⟩ := Declarations.exists_shapes hc' h'
  obtain rfl := hgives.unique hgives' hagree
  -- What is given is declared by both commands, and so in the same way
  refine hshapes.unique (hshapes'.congr fun g hg => ?_)
  obtain ⟨kind, hkind⟩ := hgives.declared g hg
  obtain ⟨kind', hkind'⟩ := hgives'.declared g hg
  rw [hkind, hkind', hagree g hg kind kind' hkind hkind']

/-- A flag that is on by default and a default format do not matter, and of two values the first one
counts. -/
theorem mode_of_given_defaults :
    let flag (f : ModeFlag) (kind : FlagKind) (default : Option String) : Arg :=
      { id := f.id, long := some f.name, default, action := kind.action, type := kind.valueType }
    let c := CommandSpec.mk "all" [] "" [flag .dryRun .switch (some "true"),
      flag .output (.once .text) (some "yaml"), flag .wait (.repeated .truth) none,
      CommandSpec.helpArg] []
    let c' := CommandSpec.mk "some" [] "" [CommandSpec.helpArg,
      flag .wait (.repeated .truth) (some "false"), flag .output (.once .text) none] []
    let words := ["--wait=true", "--output", "", "--wait=false", "--"]
    ∃ parsed parsed', parse c "" words = .ok parsed ∧ parse c' "" words = .ok parsed' ∧
      parsed.found.mode = .ok { wait := true } ∧ parsed'.found.mode = parsed.found.mode := by
  intro flag c c' words
  let kind? : ModeFlag → FlagKind
    | .dryRun => .switch
    | .output => .once .text
    | .wait => .repeated .truth
  have hflag : ∀ f default, (flag f (kind? f) default).Declares f (kind? f) :=
    fun f default => ⟨rfl, rfl, rfl, rfl, rfl⟩
  let d : Declarations := ⟨fun f => some (kind? f)⟩
  let d' : Declarations := ⟨fun f => if f = .dryRun then none else some (kind? f)⟩
  -- The first command declares all three flags, the second one leaves the dry run out
  have hc : c.Declares d := by
    refine ⟨rfl, fun a ha => ?_, fun f kind hf => ?_⟩
    · simp only [c, CommandSpec.args, List.mem_cons, List.not_mem_nil, or_false] at ha
      rcases ha with rfl | rfl | rfl | rfl
      · exact Or.inr ⟨.dryRun, _, rfl, hflag _ _⟩
      · exact Or.inr ⟨.output, _, rfl, hflag _ _⟩
      · exact Or.inr ⟨.wait, _, rfl, hflag _ _⟩
      · exact Or.inl rfl
    · cases hf
      cases f with
      | dryRun => exact ⟨_, .head _, hflag .dryRun _⟩
      | output => exact ⟨_, .tail _ (.head _), hflag .output _⟩
      | wait => exact ⟨_, .tail _ (.tail _ (.head _)), hflag .wait _⟩
  have hc' : c'.Declares d' := by
    refine ⟨rfl, fun a ha => ?_, fun f kind hf => ?_⟩
    · simp only [c', CommandSpec.args, List.mem_cons, List.not_mem_nil, or_false] at ha
      rcases ha with rfl | rfl | rfl
      · exact Or.inl rfl
      · exact Or.inr ⟨.wait, _, rfl, hflag _ _⟩
      · exact Or.inr ⟨.output, _, rfl, hflag _ _⟩
    · cases f with
      | dryRun => cases hf
      | output =>
        cases hf
        exact ⟨_, .tail _ (.tail _ (.head _)), hflag .output _⟩
      | wait =>
        cases hf
        exact ⟨_, .tail _ (.head _), hflag .wait _⟩
  obtain ⟨parsed, h⟩ : ∃ parsed, parse c "" words = .ok parsed := ⟨_, rfl⟩
  obtain ⟨parsed', h'⟩ : ∃ parsed, parse c' "" words = .ok parsed := ⟨_, rfl⟩
  obtain ⟨given, hgives, hshapes, hsame⟩ := mode_of_given hc h
  refine ⟨parsed, parsed', h, h', ?_, hsame c' d' "" parsed' hc' ?_ h'⟩
  · have hmode : (parse c "" words).map (·.found.mode) = .ok (.ok { wait := true }) := rfl
    rw [h] at hmode
    exact Except.ok.inj hmode
  · -- Both commands declare a format and the waiting in the same way
    rintro ⟨f, value⟩ - kind kind' hkind hkind'
    cases f with
    | dryRun => cases hkind'
    | output | wait =>
      cases hkind
      cases hkind'
      rfl

end BuilderControl.CommandLine
