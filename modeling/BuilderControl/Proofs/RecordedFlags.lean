import BuilderControl.Proofs.FlagWords

/-!
# Flags that are recorded

If a command that declares flags takes some words, they are flags that were given in turn, and of
each flag it finds what was given first.  A flag is recorded at once, or it is pending until its
value and the word after that were looked at.

## Key results

- `Declarations.Recorded`: what is found of the flags that were given
- `ParseState.exists_record`: what one flag leaves behind
- `ParseState.explains_of_takeAll`: the words that a command takes are flags, and these are recorded
-/

namespace BuilderControl.CommandLine

/-! ## What is recorded -/

/-- A match shows what was given for a flag first. -/
structure Match.Shows (m : Match) (kind : FlagKind) (g : Given) : Prop where
  explicit : m.explicit = true
  type : m.type = kind.type
  values : m.values ≠ []
  first : kind.type = g.flag.expected → m.values.head? = g.read

/-- Each flag that was given is found, with what was given for it first, and no other flag is. -/
def Declarations.Recorded (d : Declarations) (given : List Given) (found : Matches) : Prop :=
  ∀ f : ModeFlag, Option.Rel (fun g m => ∃ kind, d.kind? f = some kind ∧ m.Shows kind g)
    (given.find? (·.flag = f)) (found.find? f.id)

/-- One match is put in the place of what was found under its name. -/
def Matches.Puts (found found' : Matches) (m : Match) : Prop :=
  ∀ id, found'.find? id = if m.id = id then some m else found.find? id

/-- What was found under a name is replaced by a match of that name. -/
theorem Matches.puts_append_filter {found : Matches} {m : Match} {name : String} (h : m.id = name) :
    found.Puts (found.filter (·.id ≠ name) ++ [m]) m := by
  subst h
  intro id
  rw [Matches.find?, List.find?_append, List.find?_singleton]
  -- Under that name all others are gone, under any other nothing is touched
  by_cases hid : m.id = id
  · subst hid
    have hnone : List.find? (·.id = m.id) (found.filter (·.id ≠ m.id)) = none := by simp
    rw [hnone, if_pos rfl, if_pos (by simp), Option.none_or]
  · rw [List.find?_filter, if_neg hid, if_neg (by simpa using hid), Option.or_none, Matches.find?]
    congr 1
    funext m'
    by_cases hm' : m'.id = id
    · simp [hm', Ne.symm hid]
    · simp [hm']

/-- A match of a name under which nothing was found is put at the end. -/
theorem Matches.puts_append {found : Matches} {m : Match} (h : found.find? m.id = none) :
    found.Puts (found ++ [m]) m := by
  intro id
  rw [Matches.find?, List.find?_append, List.find?_singleton]
  by_cases hid : m.id = id
  · subst hid
    rw [Matches.find?] at h
    rw [h, if_pos rfl, if_pos (by simp), Option.none_or]
  · rw [if_neg hid, if_neg (by simpa using hid), Option.or_none, Matches.find?]

/-- One more flag is recorded by a match that shows it, or what was given for it before. -/
theorem Declarations.Recorded.put {d : Declarations} {given : List Given} {found found' : Matches}
    (h : d.Recorded given found) {g : Given} {kind : FlagKind} (hkind : d.kind? g.flag = some kind)
    {m : Match} (hid : m.id = g.flag.id) (hputs : found.Puts found' m)
    (hnew : found.find? g.flag.id = none → m.Shows kind g)
    (hold : ∀ m' g', found.find? g.flag.id = some m' → g'.flag = g.flag → m'.Shows kind g' →
      m.Shows kind g') :
    d.Recorded (given ++ [g]) found' := by
  intro f
  rw [hputs, hid, List.find?_append, List.find?_singleton]
  -- Only what is found of this flag is another match than before
  by_cases hf : g.flag = f
  · subst hf
    rw [if_pos rfl]
    have hbefore := h g.flag
    generalize hgiven : given.find? (·.flag = g.flag) = first at hbefore
    generalize hfind : found.find? g.flag.id = m' at hbefore
    -- If the flag was given before, that is what counts
    cases hbefore with
    | none =>
      rw [Option.none_or, if_pos (by simp)]
      exact .some ⟨kind, hkind, hnew hfind⟩
    | some hshows =>
      obtain ⟨kind', hkind', hshows⟩ := hshows
      have hflag := List.find?_some hgiven
      cases hkind.symm.trans hkind'
      exact .some ⟨kind, hkind, hold _ _ hfind (by simpa using hflag) hshows⟩
  · rw [if_neg fun h => hf (ModeFlag.eq_of_id h), if_neg (by simpa using hf), Option.or_none]
    exact h f

/-- A value that is read is what was given, if it is of the type that it has to be of. -/
theorem Arg.Declares.read {a : Arg} {f : ModeFlag} {kind : FlagKind} (h : a.Declares f kind)
    (htakes : kind.takesValue = true) {text : String} {value : ArgValue}
    (hread : a.read text = .ok value) (htype : kind.type = f.expected) :
    some value = (⟨f, some text⟩ : Given).read := by
  obtain ⟨v, hvalueType, htypeV⟩ := FlagKind.exists_value htakes
  rw [Arg.read, h.type, hvalueType] at hread
  rw [htypeV] at htype
  -- Only texts and truths are expected of any flag
  cases v with
  | text =>
    cases f with
    | output =>
      cases hread
      rfl
    | dryRun | wait => cases htype
  | number => cases f <;> cases htype
  | truth =>
    cases f with
    | output => cases htype
    | dryRun | wait =>
      simp only [FlagValue.valueType] at hread
      by_cases htrue : text = "true"
      · rw [if_pos htrue] at hread
        cases hread
        simp [Given.read, Given.isOn, htrue]
      · rw [if_neg htrue] at hread
        split at hread
        · cases hread
          simp [Given.read, Given.isOn, htrue]
        · cases hread

namespace ParseState

/-- A flag is recorded by a match in the place of what was found of it: the match shows the flag if
nothing was found, and else what the one before it shows. -/
structure RecordedBy (f : ModeFlag) (kind : FlagKind) (value : Option String)
    (s s' : ParseState) (m : Match) : Prop where
  frame : s' = { s with found := s'.found }
  id : m.id = f.id
  puts : s.found.Puts s'.found m
  new : s.found.find? f.id = none → m.Shows kind ⟨f, value⟩
  old : ∀ m' g, s.found.find? f.id = some m' → g.flag = f → m'.Shows kind g → m.Shows kind g

section Record

variable {a : Arg} {f : ModeFlag} {s s' : ParseState}

/-- A value that is given once is recorded if none was found. -/
private theorem exists_recordedBy_once {v : FlagValue} (ha : a.Declares f (.once v))
    {text : String} (h : s.record a [text] = .ok s') :
    ∃ m, RecordedBy f (.once v) (some text) s s' m := by
  obtain ⟨hnone, _, read, ⟨⟩, hread, rfl⟩ := (record_set_ok_iff ha.action (by simp)).1 h
  refine ⟨⟨a.id, true, a.flagType, [read]⟩, rfl, ha.id, Matches.puts_append hnone,
    fun _ => ⟨rfl, ha.flagType_eq, List.cons_ne_nil _ _, ha.read rfl hread⟩, ?_⟩
  intro m' g hsome
  cases (ha.id ▸ hnone).symm.trans hsome

/-- A flag that is turned on is recorded if it was not found. -/
private theorem exists_recordedBy_switch (ha : a.Declares f .switch)
    (h : s.record a [] = .ok s') : ∃ m, RecordedBy f .switch none s s' m := by
  obtain ⟨hnone, rfl⟩ := (record_switch_ok_iff ha.action).1 h
  refine ⟨⟨a.id, true, a.flagType, [.truth true]⟩, rfl, ha.id, Matches.puts_append hnone,
    fun _ => ⟨rfl, ha.flagType_eq, List.cons_ne_nil _ _, fun hexpected => ?_⟩, ?_⟩
  · cases f with
    | output => cases hexpected
    | dryRun | wait => rfl
  · intro m' g hsome
    cases (ha.id ▸ hnone).symm.trans hsome

/-- Of a value that may be given again, the earlier ones are kept in front. -/
private theorem exists_recordedBy_repeated {v : FlagValue} (ha : a.Declares f (.repeated v))
    {text : String} (h : s.record a [text] = .ok s') :
    ∃ m, RecordedBy f (.repeated v) (some text) s s' m := by
  obtain ⟨read, hread, rfl⟩ := (record_append_ok_iff ha.action).1 h
  refine ⟨⟨a.id, true, a.flagType, (s.found.find? a.id).elim [] Match.values ++ [read]⟩, rfl,
    ha.id, Matches.puts_append_filter rfl, fun hnone => ?_, fun m' g hsome hg hm' => ?_⟩
  · rw [ha.id, hnone]
    exact ⟨rfl, ha.flagType_eq, List.cons_ne_nil _ _, ha.read rfl hread⟩
  · -- What was given before stays in front
    rw [ha.id, hsome]
    refine ⟨rfl, ha.flagType_eq, by simp, fun hexpected => ?_⟩
    obtain ⟨v, more, hvalues⟩ := List.exists_cons_of_ne_nil hm'.values
    rw [← hm'.first hexpected, Option.elim_some, hvalues]
    rfl

/-- What is counted is recorded with the new count. -/
private theorem exists_recordedBy_count (ha : a.Declares f .count) {raw : List String}
    (h : s.record a raw = .ok s') : ∃ m, RecordedBy f .count none s s' m := by
  obtain ⟨n, hrecord⟩ := @exists_record_count s a raw ha.action
  cases hrecord.symm.trans h
  -- What is counted is never of the type that it has to be of
  have hshows : ∀ g, g.flag = f →
      (⟨a.id, true, a.flagType, [.number n]⟩ : Match).Shows .count g := by
    intro g hg
    refine ⟨rfl, ha.flagType_eq, List.cons_ne_nil _ _, fun hexpected => ?_⟩
    rw [hg] at hexpected
    cases f <;> cases hexpected
  exact ⟨⟨a.id, true, a.flagType, [.number n]⟩, rfl, ha.id, Matches.puts_append_filter rfl,
    fun _ => hshows _ rfl, fun _ g _ hg _ => hshows g hg⟩

/-- However a flag is declared, it is recorded by some match. -/
theorem exists_record {kind : FlagKind} (ha : a.Declares f kind) {value : Option String}
    (hvalue : value.isSome = kind.takesValue) (h : s.record a value.toList = .ok s') :
    ∃ m, RecordedBy f kind value s s' m := by
  cases kind with
  | switch =>
    cases value with
    | none => exact exists_recordedBy_switch ha h
    | some _ => cases hvalue
  | count =>
    cases value with
    | none => exact exists_recordedBy_count ha h
    | some _ => cases hvalue
  | once v =>
    cases value with
    | none => cases hvalue
    | some text => exact exists_recordedBy_once ha h
  | repeated v =>
    cases value with
    | none => cases hvalue
    | some text => exact exists_recordedBy_repeated ha h

end Record

/-! ## Words that a command takes -/

/-- Takes some words, and looks at what is pending then. -/
def takeAll (place : Place) (s : ParseState) (words : List String) : Except UsageError ParseState :=
  words.foldlM (fun s word => s.take place word) s >>= resolve

/-- The first word is taken, and then all the others. -/
theorem takeAll_cons (place : Place) (s : ParseState) (word : String) (words : List String) :
    takeAll place s (word :: words) = (s.take place word >>= fun s => takeAll place s words) := by
  rw [takeAll, List.foldlM_cons, bind_assoc]
  rfl

/-- Without a value, nothing is recorded of an argument that takes one. -/
theorem record_nil_ne_ok {a : Arg} (htakes : a.takesValue = true) {s s' : ParseState} :
    s.record a [] ≠ .ok s' := by
  intro h
  simp only [record, htakes] at h
  cases h

/-- What is recorded depends on what was found, and nothing else is changed. -/
theorem record_eq (s : ParseState) (a : Arg) (raw : List String) :
    s.record a raw = (({ found := s.found } : ParseState).record a raw).map fun t =>
      { s with found := t.found } := by
  -- All that is looked at is what was found and what is given
  simp only [record]
  generalize (a.takesValue && raw.isEmpty) = empty
  generalize s.found.find? a.id = earlier
  generalize raw.mapM a.read = values
  cases a.action <;> cases empty <;> cases earlier <;> cases values <;> rfl

/-- When nothing is awaited, nothing is pending any more once it was looked at. -/
theorem idle_of_resolve {s v : ParseState} (hawaiting : s.awaiting = false)
    (h : s.resolve = .ok v) : v.pending = none ∧ v.awaiting = false ∧ v.trailing = s.trailing := by
  rw [resolve] at h
  cases hpending : s.pending with
  | none =>
    rw [hpending] at h
    cases h
    exact ⟨hpending, hawaiting, rfl⟩
  | some p =>
    simp only [hpending] at h
    rw [record_eq] at h
    obtain ⟨t, -, rfl⟩ := Except.map_ok_iff.1 h
    exact ⟨rfl, rfl, rfl⟩

/-- What is pending is recorded in the same way when no options follow. -/
theorem exists_resolve_of_trailing {s u : ParseState}
    (h : ({ s with trailing := true } : ParseState).resolve = .ok u) :
    ∃ v, s.resolve = .ok v ∧ v.found = u.found := by
  rw [resolve] at h ⊢
  cases hpending : s.pending with
  | none =>
    simp only [hpending] at h
    cases h
    exact ⟨s, rfl, rfl⟩
  | some p =>
    simp only [hpending] at h ⊢
    rw [record_eq] at h ⊢
    obtain ⟨t, ht, rfl⟩ := Except.map_ok_iff.1 h
    exact ⟨_, Except.map_ok_iff.2 ⟨t, ht, rfl⟩, rfl⟩

/-- If nothing is pending, nothing happens. -/
theorem resolve_of_idle {s : ParseState} (h : s.pending = none) : s.resolve = .ok s := by
  rw [resolve, h]

section Words

variable {place : Place} {d : Declarations} (hc : place.command.Declares d) {s s' u : ParseState}
include hc

/-- No positional word is taken, as only flags are declared. -/
theorem takePositional_ne_ok (word : String) : s.takePositional place word ≠ .ok s' := by
  intro h
  rw [takePositional, hc.positionals, List.getElem?_nil] at h
  simp only at h
  split at h <;> cases h

/-- Nothing follows two dashes. -/
theorem eq_nil_of_trailing (htrailing : s.trailing = true) {words : List String}
    (h : takeAll place s words = .ok u) : words = [] := by
  cases words with
  | nil => rfl
  | cons word words =>
    rw [takeAll_cons, take, if_pos htrailing] at h
    obtain ⟨t, htake, -⟩ := Except.bind_ok_iff.1 h
    exact absurd htake (takePositional_ne_ok hc word)

omit hc in
/-- A request for help ends the parse. -/
theorem give_help_ne_ok (attached : Option String) :
    s.give place CommandSpec.helpArg attached ≠ .ok s' := by
  intro h
  obtain ⟨v, -, hv⟩ := Except.bind_ok_iff.1 h
  cases hv

/-- No short option is taken, as only the one for help is declared. -/
theorem takeShort_ne_ok (letter : Char) (rest : List Char) :
    s.takeShort place (letter :: rest) ≠ .ok s' := by
  intro h
  simp only [takeShort] at h
  cases hfind : place.command.args.find? (·.short = some letter) with
  | none =>
    rw [hfind] at h
    cases h
  | some a =>
    rw [hfind] at h
    have hletter : a.short = some letter := by simpa using List.find?_some hfind
    rcases hc.args a (List.mem_of_find?_eq_some hfind) with rfl | ⟨f, kind, -, ha⟩
    · obtain ⟨v, hgive, -⟩ := Except.bind_ok_iff.1 h
      exact give_help_ne_ok none hgive
    · rw [ha.short] at hletter
      cases hletter

omit hc in
/-- A long option is looked up by its name, and gets what is attached to it. -/
private theorem takeLong_eq (rest : List Char) : s.takeLong place rest =
    match place.command.args.find? (·.long = some (String.ofList (rest.takeWhile (· ≠ '=')))) with
    | none => .error .unknownArgument
    | some a =>
      if (ModeFlag.attached? rest).isSome && !a.takesValue then .error .needlessValue
      else s.give place a (ModeFlag.attached? rest) := rfl

/-- A word with two dashes names a flag. -/
theorem exists_of_takeLong {word : String} {rest : List Char}
    (hword : word.toList = '-' :: '-' :: rest) (h : s.takeLong place rest = .ok s') :
    ∃ f kind a attached, word = f.word attached ∧ d.kind? f = some kind ∧ a.Declares f kind ∧
      (attached.isSome = true → kind.takesValue = true) ∧ s.give place a attached = .ok s' := by
  rw [takeLong_eq] at h
  cases hfind : place.command.args.find?
      (·.long = some (String.ofList (rest.takeWhile (· ≠ '=')))) with
  | none =>
    rw [hfind] at h
    cases h
  | some a =>
    have hlong : a.long = some (String.ofList (rest.takeWhile (· ≠ '='))) := by
      simpa using List.find?_some hfind
    rw [hfind] at h
    simp only at h
    split at h
    · cases h
    · rename_i htakes
      -- What was found is the help, which is never given, or a flag
      rcases hc.args a (List.mem_of_find?_eq_some hfind) with rfl | ⟨f, kind, hkind, ha⟩
      · exact absurd h (give_help_ne_ok _)
      · rw [ha.long] at hlong
        refine ⟨f, kind, a, _, ModeFlag.eq_word hword (Option.some.inj hlong).symm, hkind, ha,
          fun hsome => ?_, h⟩
        rw [← ha.takesValue_eq]
        simpa [hsome] using htakes

omit hc in
/-- A flag is recorded with its value, or it waits for the next word. -/
theorem give_ok {a : Arg} {f : ModeFlag} {kind : FlagKind} (ha : a.Declares f kind)
    {attached : Option String} (hattached : attached.isSome = true → kind.takesValue = true)
    (h : s.give place a attached = .ok s') :
    ∃ v, s.resolve = .ok v ∧
      ((attached.isSome = kind.takesValue ∧ v.record a attached.toList = .ok s') ∨
        (kind.takesValue = true ∧ attached = none ∧
          s' = { v with pending := some (a, []), awaiting := true })) := by
  obtain ⟨v, hv, hgiven⟩ := Except.bind_ok_iff.1 h
  refine ⟨v, hv, ?_⟩
  rw [ha.action] at hgiven
  -- A flag that takes no value is recorded at once, the others need one
  cases kind with
  | switch | count =>
    cases attached with
    | none => exact Or.inl ⟨rfl, hgiven⟩
    | some value => cases hattached rfl
  | once value | repeated value =>
    cases attached with
    | none =>
      cases hgiven
      exact Or.inr ⟨rfl, rfl, rfl⟩
    | some value => exact Or.inl ⟨rfl, hgiven⟩

/-- A flag that waits for its value gets the next word, which is no option. -/
theorem exists_of_awaiting {a : Arg} (htakes : a.takesValue = true)
    (hpending : s.pending = some (a, [])) (hawaiting : s.awaiting = true)
    (htrailing : s.trailing = false) {words : List String} (h : takeAll place s words = .ok u) :
    ∃ value more, words = value :: more ∧ startsOption value = false ∧
      takeAll place { s with pending := some (a, [value]), awaiting := false } more = .ok u := by
  have hunresolved : ∀ {t v : ParseState}, t.pending = some (a, []) → t.resolve ≠ .ok v := by
    intro t v ht
    rw [resolve, ht]
    exact record_nil_ne_ok htakes
  cases words with
  | nil => exact absurd h (hunresolved hpending)
  | cons word words =>
    rw [takeAll_cons] at h
    obtain ⟨t, htake, hrest⟩ := Except.bind_ok_iff.1 h
    -- Only a word that is no option can be the value, the others leave it missing
    rcases take_cases word with ⟨-, htaken⟩ | ⟨rest, hword, htaken⟩ | ⟨letter, rest, -, htaken⟩ |
      ⟨hvalue, htaken⟩
    · rw [htaken place s htrailing] at htake
      cases htake
      obtain rfl := eq_nil_of_trailing hc rfl hrest
      exact absurd hrest (hunresolved hpending)
    · rw [htaken place s htrailing] at htake
      obtain ⟨f, kind, b, attached, -, -, hb, hattached, hgive⟩ := exists_of_takeLong hc hword htake
      obtain ⟨v, hv, -⟩ := give_ok hb hattached hgive
      exact absurd hv (hunresolved hpending)
    · rw [htaken place s htrailing] at htake
      exact absurd htake (takeShort_ne_ok hc letter rest)
    · rw [htaken place s htrailing, if_pos hawaiting, hpending] at htake
      cases htake
      exact ⟨word, words, rfl, hvalue, hrest⟩

/-- Some words give flags, and these are recorded after what was given before, what was pending
included. -/
def Explains (d : Declarations) (words : List String) (s u : ParseState) : Prop :=
  ∃ v given, s.resolve = .ok v ∧ d.Gives words given ∧
    ∀ before, d.Recorded before v.found → d.Recorded (before ++ given) u.found

section Explains

omit hc

variable {a : Arg} {f : ModeFlag} {kind : FlagKind} (hkind : d.kind? f = some kind)
  (ha : a.Declares f kind) {v t : ParseState} (hv : s.resolve = .ok v) {words : List String}
include hkind ha hv

/-- A flag that is recorded at once, in front of words that are explained. -/
theorem Explains.of_record (hidle : v.pending = none) {attached : Option String}
    (hvalue : attached.isSome = kind.takesValue) (hrecord : v.record a attached.toList = .ok t)
    (h : Explains d words t u) : Explains d (f.word attached :: words) s u := by
  obtain ⟨m, hm⟩ := exists_record ha hvalue hrecord
  obtain ⟨w, given, hw, hgives, hrecorded⟩ := h
  cases (resolve_of_idle (by rw [hm.frame]; exact hidle)).symm.trans hw
  refine ⟨v, ⟨f, attached⟩ :: given, hv, ?_, fun before hbefore => ?_⟩
  · cases attached with
    | none => exact .bare hkind hvalue.symm hgives
    | some value => exact .attached hkind hvalue.symm hgives
  · simpa using hrecorded _ (hbefore.put hkind hm.id hm.puts hm.new hm.old)

/-- A flag that is pending with the next word as its value.  It is recorded once the word after that
is looked at. -/
theorem Explains.of_next (htakes : kind.takesValue = true) {value : String}
    (hvalue : startsOption value = false)
    (h : Explains d words { v with pending := some (a, [value]), awaiting := false } u) :
    Explains d (f.word none :: value :: words) s u := by
  obtain ⟨w, given, hw, hgives, hrecorded⟩ := h
  have hvalued : (some value).isSome = kind.takesValue := htakes.symm
  obtain ⟨m, hm⟩ := exists_record ha hvalued hw
  refine ⟨v, ⟨f, some value⟩ :: given, hv, .next hkind htakes hvalue hgives,
    fun before hbefore => ?_⟩
  simpa using hrecorded _ (hbefore.put hkind hm.id hm.puts hm.new hm.old)

end Explains

/-- The words that a command takes are flags that are given in turn, and these are recorded. -/
theorem explains_of_takeAll {s u : ParseState} (words : List String)
    (hawaiting : s.awaiting = false) (htrailing : s.trailing = false)
    (h : takeAll place s words = .ok u) : Explains d words s u := by
  cases words with
  | nil => exact ⟨u, [], h, .nil, fun before hbefore => by rwa [List.append_nil]⟩
  | cons word words =>
    rw [takeAll_cons] at h
    obtain ⟨t, htake, hrest⟩ := Except.bind_ok_iff.1 h
    -- By the first word: the end of the options, a flag, or something that is refused
    rcases take_cases word with ⟨rfl, htaken⟩ | ⟨rest, hword, htaken⟩ | ⟨letter, rest, -, htaken⟩ |
      ⟨-, htaken⟩
    · rw [htaken place s htrailing] at htake
      cases htake
      obtain rfl := eq_nil_of_trailing hc rfl hrest
      obtain ⟨v, hv, hfound⟩ := exists_resolve_of_trailing hrest
      refine ⟨v, [], hv, .dashes, fun before hbefore => ?_⟩
      rwa [List.append_nil, ← hfound]
    · rw [htaken place s htrailing] at htake
      obtain ⟨f, kind, a, attached, rfl, hkind, ha, hattached, hgive⟩ :=
        exists_of_takeLong hc hword htake
      obtain ⟨v, hv, ⟨hvalue, hrecord⟩ | ⟨htakes, rfl, rfl⟩⟩ := give_ok ha hattached hgive
      all_goals obtain ⟨hidle, hquiet, hfree⟩ := idle_of_resolve hawaiting hv
      · -- Nothing but what was found is different once the flag is recorded
        obtain ⟨m, hm⟩ := exists_record ha hvalue hrecord
        exact .of_record hkind ha hv hidle hvalue hrecord (explains_of_takeAll words
          (by rw [hm.frame]; exact hquiet) (by rw [hm.frame]; exact hfree.trans htrailing) hrest)
      · -- The flag takes the next word with it, so two words are done
        obtain ⟨value, more, rfl, hvalue, hmore⟩ := exists_of_awaiting hc
          (s := { v with pending := some (a, []), awaiting := true })
          (ha.takesValue_eq.trans htakes) rfl rfl (hfree.trans htrailing) hrest
        exact .of_next hkind ha hv htakes hvalue
          (explains_of_takeAll more rfl (hfree.trans htrailing) hmore)
    · rw [htaken place s htrailing] at htake
      exact absurd htake (takeShort_ne_ok hc letter rest)
    · rw [htaken place s htrailing, hawaiting, if_neg Bool.false_ne_true] at htake
      exact absurd htake (takePositional_ne_ok hc word)
termination_by words.length

end Words

end ParseState

end BuilderControl.CommandLine
