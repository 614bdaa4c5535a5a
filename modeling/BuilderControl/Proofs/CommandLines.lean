import BuilderControl.Invocation
import BuilderControl.Proofs.Records
import Mathlib.Data.List.Find

/-!
# Words that two commands take

Commands are given by the arguments that they know.  If each argument of a command has one in
another command that stands for it, the words that the first one takes are taken by the second one
as well, and the same is recorded of them.

## Key results

- `ParseState.follows_take`: one word is taken in the same way
- `exists_given`: what is given to a command with some words, and to another one with the same words
-/

namespace BuilderControl.CommandLine

/-! ## Words of commands without subcommands -/

/-- Whether a word is an option rather than a value; a dash alone is a value. -/
def startsOption (word : String) : Bool :=
  match word.toList with
  | '-' :: _ :: _ => true
  | _ => false

namespace ParseState

/-- Takes a word; there are no subcommands that it could be. -/
def take (s : ParseState) (place : Place) (word : String) : Except UsageError ParseState :=
  if s.trailing then s.takePositional place word
  else match word.toList with
    | ['-', '-'] => .ok { s with trailing := true }
    | '-' :: '-' :: rest => s.takeLong place rest
    | '-' :: c :: rest => s.takeShort place (c :: rest)
    | _ =>
      if s.awaiting then
        .ok { s with
          pending := s.pending.map fun (a, raw) => (a, raw ++ [word])
          awaiting := false }
      else s.takePositional place word

/-- As long as options may follow, it is up to a word alone how it is taken. -/
theorem take_cases (word : String) :
    (word = "--" ∧ ∀ (place : Place) (s : ParseState), s.trailing = false →
      s.take place word = .ok { s with trailing := true }) ∨
    (∃ rest, word.toList = '-' :: '-' :: rest ∧
      ∀ (place : Place) (s : ParseState), s.trailing = false →
        s.take place word = s.takeLong place rest) ∨
    (∃ letter rest, word.toList = '-' :: letter :: rest ∧
      ∀ (place : Place) (s : ParseState), s.trailing = false →
        s.take place word = s.takeShort place (letter :: rest)) ∨
    (startsOption word = false ∧ ∀ (place : Place) (s : ParseState), s.trailing = false →
      s.take place word = if s.awaiting then
        .ok { s with
          pending := s.pending.map fun (a, raw) => (a, raw ++ [word])
          awaiting := false }
        else s.takePositional place word) := by
  simp only [take, startsOption, ← String.toList_inj]
  -- By the first two characters: a lone dash is a value, and two dashes alone end the options
  match word.toList with
  | [] | [_] => exact Or.inr (Or.inr (Or.inr ⟨by simp, fun place s h => by simp [h]⟩))
  | first :: second :: rest =>
    by_cases hfirst : first = '-'
    · subst hfirst
      by_cases hsecond : second = '-'
      · subst hsecond
        cases rest with
        | nil => exact Or.inl ⟨rfl, fun place s h => by simp [h]⟩
        | cons third rest =>
          exact Or.inr (Or.inl ⟨third :: rest, rfl, fun place s h => by simp [h]⟩)
      · exact Or.inr (Or.inr (Or.inl ⟨second, rest, rfl, fun place s h => by simp [h, hsecond]⟩))
    · exact Or.inr (Or.inr (Or.inr ⟨by simp [hfirst], fun place s h => by simp [h, hfirst]⟩))

end ParseState

section Leaf

variable {place : Place} (h : place.command.subcommands = []) (s : ParseState)
include h

/-- The first word of a command without subcommands is taken, and then the others. -/
private theorem parseFrom_cons_of_leaf (word : String) (words : List String) :
    parseFrom place s (word :: words) =
      (s.take place word >>= fun s => parseFrom place s words) := by
  have hfind : place.command.find? word = none := by
    rw [CommandSpec.find?, h]
    rfl
  rw [parseFrom, hfind, ite_self, ParseState.take]
  obtain ⟨found, pending, awaiting, position, trailing⟩ := s
  -- No word is a subcommand, so both sides look at the same characters
  cases trailing with
  | true => simp
  | false =>
    simp only [Bool.false_eq_true, if_false, Bool.not_false, Bool.and_true]
    rcases word.toList with _ | ⟨first, _ | ⟨second, rest⟩⟩
    · cases awaiting with
      | true => simp [bind, Except.bind]
      | false => simp
    · cases awaiting with
      | true => simp [bind, Except.bind]
      | false => simp
    · by_cases hfirst : first = '-'
      · subst hfirst
        by_cases hsecond : second = '-'
        · subst hsecond
          cases rest <;> rfl
        · simp [hsecond]
      · cases awaiting with
        | true => simp [hfirst, bind, Except.bind]
        | false => simp [hfirst]

/-- The words of a command without subcommands are taken one by one. -/
theorem parseFrom_of_leaf (words : List String) : parseFrom place s words =
    (words.foldlM (fun s word => s.take place word) s >>= fun s =>
      (s.finish place).map (⟨place.route, ·⟩)) := by
  -- On the words, with the state after each of them
  induction words generalizing s with
  | nil => rfl
  | cons word words ih =>
    rw [parseFrom_cons_of_leaf h, List.foldlM_cons, bind_assoc]
    congr 1
    exact funext ih

end Leaf

/-! ## What is recorded of arguments -/

/-- What may be recorded of an argument that was given. -/
inductive Arg.Records (a : Arg) : Match → Prop
  | set (haction : a.action = .set) {text : String} {value : ArgValue}
    (hread : a.read text = .ok value) : Records a ⟨a.id, true, a.flagType, [value]⟩
  | switch (haction : a.action = .switch) :
    Records a ⟨a.id, true, a.flagType, [.truth true]⟩

namespace ParseState

variable {s s' : ParseState} {a : Arg} {raw : List String}

/-- The state with one more match. -/
def add (s : ParseState) (m : Match) : ParseState := { s with found := s.found ++ [m] }

/-- Nothing is dropped under a name that was not found. -/
private theorem filter_of_find?_eq_none {found : Matches} {id : String}
    (h : found.find? id = none) : found.filter (·.id ≠ id) = found := by
  refine List.filter_eq_self.2 fun m hm => ?_
  simpa using List.find?_eq_none.1 h m hm

/-- An argument with a value is recorded once, if its value can be read. -/
theorem record_set_ok_iff (haction : a.action = .set) (hraw : raw.length ≤ 1) :
    s.record a raw = .ok s' ↔ s.found.find? a.id = none ∧ ∃ text value, raw = [text] ∧
      a.read text = .ok value ∧ s' = s.add ⟨a.id, true, a.flagType, [value]⟩ := by
  have htakes : a.takesValue = true := by rw [Arg.takesValue, haction]
  -- Without a word there is no value, and with more than one the argument would be another
  match raw, hraw with
  | [], _ =>
    have hfails : s.record a [] = .error .badChoice := by
      simp only [record, htakes]
      rfl
    simp [hfails]
  | [text], _ =>
    -- A second value for the same argument is refused
    cases hfind : s.found.find? a.id with
    | some m =>
      have hfails : s.record a [text] = .error .givenTwice := by
        simp only [record, htakes, haction, hfind]
        rfl
      simp [hfails]
    | none =>
      have hrecord : s.record a [text] = (a.read text).map fun value =>
          s.add ⟨a.id, true, a.flagType, [value]⟩ := by
        simp only [record, htakes, haction, hfind, filter_of_find?_eq_none hfind, List.mapM_cons,
          List.mapM_nil]
        cases a.read text <;> rfl
      rw [hrecord, Except.map_ok_iff]
      constructor
      · rintro ⟨value, hread, rfl⟩
        exact ⟨rfl, text, value, rfl, hread, rfl⟩
      · rintro ⟨-, _, value, htext, hread, rfl⟩
        cases htext
        exact ⟨value, hread, rfl⟩

/-- A flag is recorded once. -/
theorem record_switch_ok_iff (haction : a.action = .switch) :
    s.record a raw = .ok s' ↔ s.found.find? a.id = none ∧
      s' = s.add ⟨a.id, true, a.flagType, [.truth true]⟩ := by
  have htakes : a.takesValue = false := by rw [Arg.takesValue, haction]
  cases hfind : s.found.find? a.id with
  | some m =>
    have hfails : s.record a raw = .error .givenTwice := by
      simp only [record, htakes, haction, hfind]
      rfl
    simp [hfails]
  | none =>
    have hrecord : s.record a raw = .ok (s.add ⟨a.id, true, a.flagType, [.truth true]⟩) := by
      simp only [record, htakes, haction, hfind, filter_of_find?_eq_none hfind]
      rfl
    rw [hrecord, Except.ok.injEq, eq_comm]
    exact ⟨fun h => ⟨rfl, h⟩, And.right⟩

/-- Of a flag that may be given more than once all values are kept, in the order in which they are
given. -/
theorem record_append_ok_iff (haction : a.action = .append) {text : String} :
    s.record a [text] = .ok s' ↔ ∃ value, a.read text = .ok value ∧
      s' = { s with found := s.found.filter (·.id ≠ a.id) ++ [⟨a.id, true, a.flagType,
        (s.found.find? a.id).elim [] Match.values ++ [value]⟩] } := by
  have htakes : a.takesValue = true := by rw [Arg.takesValue, haction]
  have hrecord : s.record a [text] = (a.read text).map fun value =>
      { s with found := s.found.filter (·.id ≠ a.id) ++ [⟨a.id, true, a.flagType,
        (s.found.find? a.id).elim [] Match.values ++ [value]⟩] } := by
    simp only [record, htakes, haction, List.mapM_cons, List.mapM_nil]
    cases a.read text <;> rfl
  rw [hrecord, Except.map_ok_iff]
  simp only [eq_comm]

/-- A flag that is counted is recorded with a number, in place of the one before. -/
theorem exists_record_count (haction : a.action = .count) : ∃ n, s.record a raw =
    .ok { s with found :=
      s.found.filter (·.id ≠ a.id) ++ [⟨a.id, true, a.flagType, [.number n]⟩] } := by
  have htakes : a.takesValue = false := by rw [Arg.takesValue, haction]
  simp only [record, htakes, haction]
  exact ⟨_, rfl⟩

/-- A request for help is not recorded. -/
theorem record_showHelp (haction : a.action = .showHelp) : s.record a raw = .ok s := by
  have htakes : a.takesValue = false := by rw [Arg.takesValue, haction]
  simp only [record, haction, htakes]
  rfl

end ParseState

/-! ## Commands whose words another command takes -/

/-- An argument of another command that takes the place of an argument.  It may refuse the empty
value where the argument does not, if it is one of the strict ones. -/
structure Arg.StandsFor (strict : List String) (b a : Arg) : Prop where
  id : b.id = a.id
  action : b.action = a.action
  type : b.type = a.type ∨ b.type = .path ∧ a.type = .text ∧ a.id ∈ strict

instance (strict : List String) (b a : Arg) : Decidable (b.StandsFor strict a) :=
  decidable_of_iff (b.id = a.id ∧ b.action = a.action ∧
    (b.type = a.type ∨ b.type = .path ∧ a.type = .text ∧ a.id ∈ strict))
    ⟨fun ⟨hid, haction, htype⟩ => ⟨hid, haction, htype⟩,
      fun ⟨hid, haction, htype⟩ => ⟨hid, haction, htype⟩⟩

namespace Arg.StandsFor

variable {strict : List String} {a b : Arg} (h : b.StandsFor strict a)
include h

/-- Both arguments have values of the same type, as far as it is recorded. -/
theorem flagType_eq : b.flagType = a.flagType := by
  rcases h.type with htype | ⟨hb, ha, -⟩
  · rw [flagType, flagType, h.action, htype]
  · rw [flagType, flagType, h.action, hb, ha]
    cases a.action <;> rfl

/-- Both arguments take a value, or both do not. -/
theorem takesValue_eq : b.takesValue = a.takesValue := by
  rw [takesValue, takesValue, h.action]

/-- A value is read in the same way, unless it is empty and refused. -/
theorem read {text : String} {value : ArgValue} (hread : a.read text = .ok value) :
    b.read text = .ok value ∨ a.id ∈ strict ∧ value = .text "" := by
  rcases h.type with htype | ⟨hb, ha, hid⟩
  · left
    rw [Arg.read] at hread ⊢
    rw [htype]
    -- Only errors say which argument is meant
    cases ha : a.type with
    | text | path | truth =>
      rw [ha] at hread
      exact hread
    | unsigned64 =>
      simp only [ha] at hread ⊢
      cases hnumber : number text with
      | ok n => rwa [hnumber] at hread
      | error fault => rw [hnumber] at hread; cases hread
    | resourceType =>
      simp only [ha] at hread ⊢
      cases htype : resourceTypeOf text with
      | some type => rwa [htype] at hread
      | none => rw [htype] at hread; cases hread
  · simp only [Arg.read, ha] at hread
    cases hread
    by_cases htext : text = ""
    · exact Or.inr ⟨hid, by rw [htext]⟩
    · left
      simp [Arg.read, hb, htext]

end Arg.StandsFor

/-- A command that takes the words of another command, and what each argument of that command is
taken for. -/
structure CommandSpec.Takes (strict : List String) (d c : CommandSpec) : Prop where
  leaf : d.subcommands = [] ∧ c.subcommands = []
  simple : ∀ a ∈ c.args, a.action ∈ [.set, .switch, .showHelp]
  positionals : d.positionals = c.positionals
  long : ∀ a ∈ c.args, a.long.all fun name =>
    (d.args.find? (·.long = some name)).any fun b => b.StandsFor strict a
  short : ∀ a ∈ c.args, a.short.all fun letter =>
    (d.args.find? (·.short = some letter)).any fun b => b.StandsFor strict a
  defaults : ∀ b ∈ d.args, b.default.all fun text => (b.read text).isOk

/-- An empty value was given for a strict argument. -/
def Matches.Spoiled (strict : List String) (ms : Matches) : Prop :=
  ∃ id ∈ strict, ∃ m, ms.find? id = some m ∧ m.values = [.text ""]

/-- An empty value that was found is found among more matches as well. -/
theorem Matches.Spoiled.mono {strict : List String} {ms ms' : Matches} (h : ms.Spoiled strict)
    (hgrows : ms <+: ms') : ms'.Spoiled strict := by
  obtain ⟨more, rfl⟩ := hgrows
  obtain ⟨id, hid, m, hfind, hvalues⟩ := h
  refine ⟨id, hid, m, ?_, hvalues⟩
  -- The first match counts, and matches are added at the end
  rw [Matches.find?, List.find?_append]
  rw [Matches.find?] at hfind
  rw [hfind, Option.some_or]

namespace ParseState

/-- A state in which only arguments of a command are recorded and pending. -/
structure Tidy (c : CommandSpec) (s : ParseState) : Prop where
  found : ∀ m ∈ s.found, ∃ a ∈ c.args, a.Records m
  pending : ∀ a raw, s.pending = some (a, raw) →
    a ∈ c.args ∧ raw.length ≤ 1 ∧ (s.awaiting = true → raw = [])
  awaiting : s.pending = none → s.awaiting = false

/-- States that differ at most in the argument that is pending. -/
structure Like (strict : List String) (t s : ParseState) : Prop where
  found : t.found = s.found
  idle : s.pending = none → t.pending = none
  pending : ∀ a raw, s.pending = some (a, raw) →
    ∃ b, t.pending = some (b, raw) ∧ b.StandsFor strict a
  awaiting : t.awaiting = s.awaiting
  position : t.position = s.position
  trailing : t.trailing = s.trailing

/-- What a step of a command leads to, next to the same step of another one: that succeeds too, unless
an empty value was given that it refuses. -/
structure Leads (strict : List String) (c : CommandSpec)
    (step : ParseState → Except UsageError ParseState) (s s' : ParseState) : Prop where
  tidy : s'.Tidy c
  grows : s.found <+: s'.found
  follows : ∀ t : ParseState, t.Like strict s →
    s'.found.Spoiled strict ∨ ∃ t', step t = .ok t' ∧ t'.Like strict s'

/-- A step that follows another one wherever that succeeds. -/
def Follows (strict : List String) (c : CommandSpec) (g f : ParseState → Except UsageError ParseState) :
    Prop :=
  ∀ s s', s.Tidy c → f s = .ok s' → Leads strict c g s s'

variable {strict : List String} {c d : CommandSpec}

/-- Steps that follow others do so one after the other. -/
theorem Follows.bind {f g f' g' : ParseState → Except UsageError ParseState}
    (h : Follows strict c g f) (h' : Follows strict c g' f') :
    Follows strict c (fun t => g t >>= g') (fun s => f s >>= f') := by
  intro s s' hs hrun
  obtain ⟨u, hf, hf'⟩ := Except.bind_ok_iff.1 hrun
  obtain ⟨hu, hgrows, hfollows⟩ := h s u hs hf
  obtain ⟨hs', hgrows', hfollows'⟩ := h' u s' hu hf'
  refine ⟨hs', hgrows.trans hgrows', fun t ht => ?_⟩
  -- An empty value that one step recorded is still there after the next
  rcases hfollows t ht with hspoiled | ⟨v, hg, hv⟩
  · exact Or.inl (hspoiled.mono hgrows')
  · rcases hfollows' v hv with hspoiled | ⟨t', hg', ht'⟩
    · exact Or.inl hspoiled
    · exact Or.inr ⟨t', Except.bind_ok_iff.2 ⟨v, hg, hg'⟩, ht'⟩

/-- A step that is another one where it matters. -/
theorem Follows.leads {f g g' : ParseState → Except UsageError ParseState}
    (h : Follows strict c g f) {s s' : ParseState} (hs : s.Tidy c) (hrun : f s = .ok s')
    (hg : ∀ t : ParseState, t.Like strict s → g' t = g t) : Leads strict c g' s s' := by
  obtain ⟨hs', hgrows, hfollows⟩ := h s s' hs hrun
  refine ⟨hs', hgrows, fun t ht => ?_⟩
  rw [hg t ht]
  exact hfollows t ht

/-- If each word is followed, all words are. -/
theorem Follows.foldlM {f g : ParseState → String → Except UsageError ParseState}
    (h : ∀ word, Follows strict c (g · word) (f · word)) (words : List String) :
    Follows strict c (fun t => words.foldlM g t) (fun s => words.foldlM f s) := by
  induction words with
  | nil =>
    rintro s _ hs ⟨⟩
    exact ⟨hs, List.prefix_refl _, fun t ht => Or.inr ⟨t, rfl, ht⟩⟩
  | cons word words ih =>
    simp only [List.foldlM_cons]
    exact (h word).bind ih

/-- A state stays tidy when an argument of the command is recorded. -/
theorem Tidy.add {s : ParseState} (hs : s.Tidy c) {a : Arg} (ha : a ∈ c.args) {m : Match}
    (hm : a.Records m) : (s.add m).Tidy c where
  found m' hm' := by
    rcases List.mem_append.1 hm' with hm' | hm'
    · exact hs.found m' hm'
    · rw [List.mem_singleton.1 hm']
      exact ⟨a, ha, hm⟩
  pending := hs.pending
  awaiting := hs.awaiting

/-- Alike states stay alike when the same is recorded in both. -/
theorem Like.add {t s : ParseState} (h : t.Like strict s) (m : Match) :
    (t.add m).Like strict (s.add m) :=
  ⟨congrArg (· ++ [m]) h.found, h.idle, h.pending, h.awaiting, h.position, h.trailing⟩

section Steps

variable (hd : d.Takes strict c)
include hd

/-- What is recorded comes after what was found so far. -/
theorem record_grows {a : Arg} (ha : a ∈ c.args) {raw : List String} (hraw : raw.length ≤ 1)
    {s s' : ParseState} (hs : s.Tidy c) (h : s.record a raw = .ok s') :
    s'.Tidy c ∧ ∃ more, s' = { s with found := s.found ++ more } := by
  have hsimple := hd.simple a ha
  simp only [List.mem_cons, List.not_mem_nil, or_false] at hsimple
  -- Values and flags are added at the end, and a request for help adds nothing
  rcases hsimple with haction | haction | haction
  · obtain ⟨-, text, value, -, hread, rfl⟩ := (record_set_ok_iff haction hraw).1 h
    exact ⟨hs.add ha (.set haction hread), _, rfl⟩
  · obtain ⟨-, rfl⟩ := (record_switch_ok_iff haction).1 h
    exact ⟨hs.add ha (.switch haction), _, rfl⟩
  · cases (record_showHelp haction).symm.trans h
    exact ⟨hs, [], by rw [List.append_nil]⟩

/-- What is recorded of an argument is recorded of the one that stands for it, unless that refuses
the empty value. -/
theorem record_like {a b : Arg} (ha : a ∈ c.args) (hb : b.StandsFor strict a) {raw : List String}
    (hraw : raw.length ≤ 1) {s s' t : ParseState} (h : s.record a raw = .ok s')
    (ht : t.Like strict s) :
    s'.found.Spoiled strict ∨ ∃ t', t.record b raw = .ok t' ∧ t'.Like strict s' := by
  have hsimple := hd.simple a ha
  simp only [List.mem_cons, List.not_mem_nil, or_false] at hsimple
  rcases hsimple with haction | haction | haction
  · obtain ⟨hnone, text, value, rfl, hread, rfl⟩ := (record_set_ok_iff haction hraw).1 h
    -- The value is read for both, or it is the empty one that only the first takes
    rcases hb.read hread with hread | ⟨hid, rfl⟩
    · refine Or.inr ⟨_, (record_set_ok_iff (hb.action.trans haction) hraw).2
        ⟨?_, text, value, rfl, hread, rfl⟩, ?_⟩
      · rw [ht.found, hb.id, hnone]
      · rw [hb.id, hb.flagType_eq]
        exact ht.add _
    · -- Then it is the value that was recorded
      refine Or.inl ⟨a.id, hid, ⟨a.id, true, a.flagType, [.text ""]⟩, ?_, rfl⟩
      rw [Matches.find?] at hnone ⊢
      rw [add, List.find?_append, hnone, Option.none_or]
      simp
  · obtain ⟨hnone, rfl⟩ := (record_switch_ok_iff haction).1 h
    refine Or.inr ⟨_, (record_switch_ok_iff (hb.action.trans haction)).2 ⟨?_, rfl⟩, ?_⟩
    · rw [ht.found, hb.id, hnone]
    · rw [hb.id, hb.flagType_eq]
      exact ht.add _
  · cases (record_showHelp haction).symm.trans h
    exact Or.inr ⟨t, record_showHelp (hb.action.trans haction), ht⟩

/-- Recording an argument is followed by recording the one that stands for it. -/
theorem follows_record {a b : Arg} (ha : a ∈ c.args) (hb : b.StandsFor strict a) {raw : List String}
    (hraw : raw.length ≤ 1) : Follows strict c (·.record b raw) (·.record a raw) := by
  intro s s' hs h
  obtain ⟨hs', more, hmore⟩ := record_grows hd ha hraw hs h
  refine ⟨hs', ?_, fun t ht => record_like hd ha hb hraw h ht⟩
  rw [hmore]
  exact List.prefix_append _ _

/-- What was pending is recorded, and nothing is pending then. -/
theorem resolve_grows {s s' : ParseState} (hs : s.Tidy c) (h : s.resolve = .ok s') :
    s'.Tidy c ∧ s'.pending = none ∧ s.found <+: s'.found := by
  rw [resolve] at h
  cases hpending : s.pending with
  | none =>
    rw [hpending] at h
    cases h
    exact ⟨hs, hpending, List.prefix_refl _⟩
  | some p =>
    obtain ⟨a, raw⟩ := p
    rw [hpending] at h
    obtain ⟨ha, hraw, -⟩ := hs.pending a raw hpending
    -- Nothing is pending while what was pending is recorded
    have hidle : ({ s with pending := none, awaiting := false } : ParseState).Tidy c :=
      ⟨hs.found, by simp, fun _ => rfl⟩
    obtain ⟨hs', more, rfl⟩ := record_grows hd ha hraw hidle h
    exact ⟨hs', rfl, List.prefix_append _ _⟩

/-- Recording what is pending is followed, as alike states have alike arguments pending. -/
theorem follows_resolve : Follows strict c resolve resolve := by
  intro s s' hs h
  obtain ⟨hs', -, hgrows⟩ := resolve_grows hd hs h
  refine ⟨hs', hgrows, fun t ht => ?_⟩
  rw [resolve] at h ⊢
  -- If nothing is pending here, nothing is pending there
  cases hpending : s.pending with
  | none =>
    rw [hpending] at h
    cases h
    rw [ht.idle hpending]
    exact Or.inr ⟨t, rfl, ht⟩
  | some p =>
    obtain ⟨a, raw⟩ := p
    rw [hpending] at h
    obtain ⟨ha, hraw, -⟩ := hs.pending a raw hpending
    obtain ⟨b, htpending, hb⟩ := ht.pending a raw hpending
    rw [htpending]
    exact record_like hd ha hb hraw h
      ⟨ht.found, fun _ => rfl, by simp, rfl, ht.position, ht.trailing⟩

variable {place place' : Place} (hplace : place.command = c) (hplace' : place'.command = d)

/-- Giving an option or a flag is followed by giving the one that stands for it. -/
theorem follows_give {a b : Arg} (ha : a ∈ c.args) (hb : b.StandsFor strict a)
    (attached : Option String) :
    Follows strict c (·.give place' b attached) (·.give place a attached) := by
  simp only [give]
  refine (follows_resolve hd).bind ?_
  have hsimple := hd.simple a ha
  simp only [List.mem_cons, List.not_mem_nil, or_false] at hsimple
  -- An option waits for its value unless that is attached; a flag is recorded at once
  rcases hsimple with haction | haction | haction
  · simp only [hb.action, haction]
    cases attached with
    | some value => exact follows_record hd ha hb (by simp)
    | none =>
      -- The value is the next word, so the argument is pending until then
      rintro s _ hs ⟨⟩
      refine ⟨⟨hs.found, ?_, nofun⟩, List.prefix_refl _, fun t ht => Or.inr ⟨_, rfl, ht.found, nofun,
        ?_, rfl, ht.position, ht.trailing⟩⟩
      · rintro _ _ ⟨⟩
        exact ⟨ha, by simp, fun _ => rfl⟩
      · rintro _ _ ⟨⟩
        exact ⟨b, rfl, hb⟩
  · simp only [hb.action, haction]
    exact follows_record hd ha hb (by simp)
  · simp only [hb.action, haction]
    rintro s _ hs ⟨⟩

include hplace hplace'

/-- A long option is followed: the other command finds one of the same name that stands for it. -/
theorem follows_takeLong (word : List Char) :
    Follows strict c (·.takeLong place' word) (·.takeLong place word) := by
  simp only [takeLong, hplace, hplace']
  generalize String.ofList (word.takeWhile (· ≠ '=')) = name
  cases hfind : c.args.find? (·.long = some name) with
  | none =>
    rintro s _ hs ⟨⟩
  | some a =>
    have ha := List.mem_of_find?_eq_some hfind
    have hname : a.long = some name := by simpa using List.find?_some hfind
    obtain ⟨b, hb, hstands⟩ : ∃ b, d.args.find? (·.long = some name) = some b ∧
        b.StandsFor strict a := by
      simpa [hname, Option.any_eq_true] using hd.long a ha
    -- Neither or both take a value, so an attached one is refused by both
    have hgive : ∀ attached : Option String, Follows strict c
        (fun t => if attached.isSome && !a.takesValue then .error .needlessValue
          else t.give place' b attached)
        (fun s => if attached.isSome && !a.takesValue then .error .needlessValue
          else s.give place a attached) := by
      intro attached
      split
      · rintro s _ hs ⟨⟩
      · exact follows_give hd ha hstands attached
    simp only [hb, hstands.takesValue_eq]
    exact hgive _

/-- Short options in one word are followed letter by letter. -/
theorem follows_takeShort (word : List Char) :
    Follows strict c (·.takeShort place' word) (·.takeShort place word) := by
  induction word with
  | nil =>
    rintro s _ hs ⟨⟩
    exact ⟨hs, List.prefix_refl _, fun t ht => Or.inr ⟨t, rfl, ht⟩⟩
  | cons letter rest ih =>
    simp only [takeShort, hplace, hplace']
    cases hfind : c.args.find? (·.short = some letter) with
    | none =>
      rintro s _ hs ⟨⟩
    | some a =>
      have ha := List.mem_of_find?_eq_some hfind
      have hletter : a.short = some letter := by simpa using List.find?_some hfind
      obtain ⟨b, hb, hstands⟩ : ∃ b, d.args.find? (·.short = some letter) = some b ∧
          b.StandsFor strict a := by
        simpa [hletter, Option.any_eq_true] using hd.short a ha
      simp only [hb, hstands.takesValue_eq]
      -- An option takes the rest of the word as its value, a flag leaves it as further letters
      split
      · exact follows_give hd ha hstands _
      · exact (follows_give hd ha hstands none).bind ih

/-- A positional word is followed, as both commands have the same positional arguments. -/
theorem follows_takePositional (word : String) :
    Follows strict c (·.takePositional place' word) (·.takePositional place word) := by
  intro s s' hs htakes
  simp only [takePositional, hplace, hplace', hd.positionals] at htakes ⊢
  cases hget : c.positionals[s.position]? with
  | none =>
    rw [hget] at htakes
    simp only at htakes
    -- All positional arguments are taken, so the word is refused
    split at htakes <;> cases htakes
  | some a =>
    rw [hget] at htakes
    have ha : a ∈ c.args := (List.mem_filter.1 (List.mem_of_getElem? hget)).1
    obtain ⟨u, hu, hnext⟩ := Except.bind_ok_iff.1 htakes
    obtain ⟨hutidy, hidle, -⟩ := resolve_grows hd hs hu
    obtain ⟨-, hgrows, hfollows⟩ := follows_resolve hd s u hs hu
    cases hnext
    refine ⟨⟨hutidy.found, ?_, nofun⟩, hgrows, fun t ht => ?_⟩
    · -- Nothing was awaited any more when the word became pending
      rintro _ _ ⟨⟩
      have hawaiting := hutidy.awaiting hidle
      exact ⟨ha, by simp, fun h => absurd h (by simp [hawaiting])⟩
    · -- The pending argument is resolved on both sides before the word becomes pending
      rw [ht.position, hget]
      rcases hfollows t ht with hspoiled | ⟨v, hv, hlike⟩
      · exact Or.inl hspoiled
      · refine Or.inr ⟨_, Except.bind_ok_iff.2 ⟨v, hv, rfl⟩, hlike.found, nofun, ?_,
          hlike.awaiting, ?_, hlike.trailing⟩
        · rintro _ _ ⟨⟩
          exact ⟨a, rfl, rfl, rfl, Or.inl rfl⟩
        · simp only [hlike.position]

/-- A word that is the value of the pending option, or else positional. -/
theorem follows_takeValue (word : String) : Follows strict c
    (fun t => if t.awaiting then
        .ok { t with
          pending := t.pending.map fun (a, raw) => (a, raw ++ [word])
          awaiting := false }
      else t.takePositional place' word)
    (fun s => if s.awaiting then
        .ok { s with
          pending := s.pending.map fun (a, raw) => (a, raw ++ [word])
          awaiting := false }
      else s.takePositional place word) := by
  intro s s' hs htake
  -- Alike states await a value together
  cases hawaiting : s.awaiting with
  | false =>
    simp only [hawaiting, Bool.false_eq_true, if_false] at htake
    refine (follows_takePositional hd hplace hplace' word).leads hs htake fun t ht => ?_
    simp only [ht.awaiting, hawaiting, Bool.false_eq_true, if_false]
  | true =>
    simp only [hawaiting, if_true] at htake
    cases htake
    refine ⟨⟨hs.found, ?_, fun _ => rfl⟩, List.prefix_refl _, fun t ht => Or.inr ⟨{ t with
      pending := t.pending.map fun (a, raw) => (a, raw ++ [word]), awaiting := false }, ?_, ht.found,
      ?_, ?_, rfl, ht.position, ht.trailing⟩⟩
    · intro a raw hpending
      obtain ⟨⟨a, raw⟩, hsome, ⟨⟩⟩ := Option.map_eq_some_iff.1 hpending
      obtain ⟨ha, -, hraw⟩ := hs.pending a raw hsome
      rw [hraw hawaiting]
      exact ⟨ha, Nat.le_refl _, nofun⟩
    · simp only [ht.awaiting, hawaiting, if_true]
    · intro hnone
      simp only [Option.map_eq_none_iff] at hnone ⊢
      exact ht.idle hnone
    · intro a raw hpending
      obtain ⟨⟨a, raw⟩, hsome, ⟨⟩⟩ := Option.map_eq_some_iff.1 hpending
      obtain ⟨b, hb, hstands⟩ := ht.pending a raw hsome
      exact ⟨b, by rw [hb]; rfl, hstands⟩

/-- A word that a command takes is taken in the same way by a command that takes its words. -/
theorem follows_take (word : String) :
    Follows strict c (·.take place' word) (·.take place word) := by
  intro s s' hs htake
  -- After the end of the options every word is positional; before it, the word alone decides
  cases htrailing : s.trailing with
  | true =>
    have htaken : ∀ (place : Place) (t : ParseState), t.trailing = true →
        t.take place word = t.takePositional place word := fun place t h => by rw [take, h, if_pos rfl]
    exact (follows_takePositional hd hplace hplace' word).leads hs
      ((htaken place s htrailing).symm.trans htake)
      fun t ht => htaken place' t (ht.trailing.trans htrailing)
  | false =>
    have hfree : ∀ t : ParseState, t.Like strict s → t.trailing = false := fun t ht =>
      ht.trailing.trans htrailing
    rcases take_cases word with ⟨-, htaken⟩ | ⟨rest, -, htaken⟩ | ⟨letter, rest, -, htaken⟩ |
      ⟨-, htaken⟩
    · have htrails : Follows strict c (fun t => .ok { t with trailing := true })
          (fun s => .ok { s with trailing := true }) := by
        rintro s _ hs ⟨⟩
        exact ⟨⟨hs.found, hs.pending, hs.awaiting⟩, List.prefix_refl _, fun t ht => Or.inr
          ⟨_, rfl, ht.found, ht.idle, ht.pending, ht.awaiting, ht.position, rfl⟩⟩
      exact htrails.leads hs ((htaken place s htrailing).symm.trans htake)
        fun t ht => htaken place' t (hfree t ht)
    · exact (follows_takeLong hd hplace hplace' rest).leads hs
        ((htaken place s htrailing).symm.trans htake) fun t ht => htaken place' t (hfree t ht)
    · exact (follows_takeShort hd hplace hplace' (letter :: rest)).leads hs
        ((htaken place s htrailing).symm.trans htake) fun t ht => htaken place' t (hfree t ht)
    · exact (follows_takeValue hd hplace hplace' word).leads hs
        ((htaken place s htrailing).symm.trans htake) fun t ht => htaken place' t (hfree t ht)

end Steps

end ParseState

/-! ## Defaults -/

/-- What is recorded of an argument that was not given. -/
def Arg.defaultMatch? (a : Arg) : Option Match :=
  a.default.bind fun text => (a.read text).toOption.map fun value =>
    ⟨a.id, false, a.flagType, [value]⟩

/-- A default is recorded under the name of its argument. -/
theorem Arg.id_of_defaultMatch? {a : Arg} {m : Match} (h : a.defaultMatch? = some m) :
    m.id = a.id := by
  obtain ⟨text, -, h⟩ := Option.bind_eq_some_iff.1 h
  obtain ⟨value, -, rfl⟩ := Option.map_eq_some_iff.1 h
  rfl

namespace CommandSpec

/-- What a command has under a name that was not given. -/
def default? (c : CommandSpec) (id : String) : Option Match :=
  Matches.find? (c.args.filterMap Arg.defaultMatch?) id

/-- What was given, with the defaults of everything else. -/
def complete (c : CommandSpec) (given : Matches) : Matches :=
  given ++ (c.args.filter fun a => (given.find? a.id).isNone).filterMap Arg.defaultMatch?

/-- What is found after completing is what was given, or else the default. -/
theorem find?_complete (c : CommandSpec) (given : Matches) (id : String) :
    (c.complete given).find? id = (given.find? id).or (c.default? id) := by
  simp only [complete, default?, Matches.find?, List.find?_append]
  cases hfind : List.find? (·.id = id) given with
  | some m => rfl
  -- A default is added exactly for names that were not given
  | none =>
    rw [Option.none_or, Option.none_or, List.find?_filterMap, List.find?_filterMap,
      List.find?_filter]
    congr 1
    refine List.find?_congr fun a _ => ?_
    -- Only arguments of that name count, and they were not given
    by_cases hid : a.id = id
    · simp [hid, hfind]
    · have hother : (a.defaultMatch?.any fun m => decide (m.id = id)) = false := by
        cases hdefault : a.defaultMatch? with
        | none => rfl
        | some m => simpa [Arg.id_of_defaultMatch? hdefault] using hid
      simp [hother]

end CommandSpec

/-- Reads the default of an argument that has one. -/
private def Arg.readDefault (a : Arg) : Except UsageError Match := do
  let value ← a.read (a.default.getD "")
  return { id := a.id, explicit := false, type := a.flagType, values := [value] }

/-- Defaults are read if each of them can be, and lead to one match each. -/
private theorem mapM_readDefault_iff {args : List Arg} {defaults : Matches} :
    (args.filter fun a => a.default.isSome).mapM Arg.readDefault = .ok defaults ↔
      (∀ a ∈ args, ∀ text ∈ a.default, ∃ value, a.read text = .ok value) ∧
        defaults = args.filterMap Arg.defaultMatch? := by
  -- An argument without a default is passed over on both sides
  induction args generalizing defaults with
  | nil => simp [pure, Except.pure, eq_comm]
  | cons a args ih =>
    rw [List.forall_mem_cons]
    cases hdefault : a.default with
    | none =>
      have hnone : a.defaultMatch? = none := by rw [Arg.defaultMatch?, hdefault]; rfl
      rw [List.filter_cons_of_neg (by simp [hdefault]), List.filterMap_cons_none hnone, ih]
      simp
    | some text =>
      rw [List.filter_cons_of_pos (by simp [hdefault]), List.mapM_cons]
      cases hread : a.read text with
      | error e =>
        have hfails : a.readDefault = .error e := by
          rw [Arg.readDefault, hdefault, Option.getD_some, hread]
          rfl
        rw [hfails]
        exact ⟨nofun, fun h => by simpa [hread] using h.1.1⟩
      | ok value =>
        have hreads : a.readDefault = .ok ⟨a.id, false, a.flagType, [value]⟩ := by
          rw [Arg.readDefault, hdefault, Option.getD_some, hread]
          rfl
        have hsome : a.defaultMatch? = some ⟨a.id, false, a.flagType, [value]⟩ := by
          rw [Arg.defaultMatch?, hdefault, Option.bind_some, hread]
          rfl
        rw [List.filterMap_cons_some hsome, Except.bind_ok_iff]
        simp only [hreads, Except.ok.injEq, exists_eq_left', Except.bind_ok_iff, ih]
        constructor
        · rintro ⟨_, ⟨hargs, rfl⟩, ⟨⟩⟩
          refine ⟨⟨?_, hargs⟩, rfl⟩
          rintro _ ⟨⟩
          exact ⟨value, hread⟩
        · rintro ⟨⟨-, hargs⟩, rfl⟩
          exact ⟨_, ⟨hargs, rfl⟩, rfl⟩

namespace ParseState

variable {s : ParseState} {place : Place} {found : Matches}

/-- What a command without subcommands finishes with. -/
theorem finish_ok_iff (h : place.command.subcommands = []) :
    s.finish place = .ok found ↔ ∃ u, s.resolve = .ok u ∧
      (∀ a ∈ place.command.args, (u.found.find? a.id).isNone →
        (∀ text ∈ a.default, ∃ value, a.read text = .ok value) ∧
        (a.default = none → a.required = false)) ∧
      found = place.command.complete u.found := by
  -- That nothing required is missing, as the command checks it and as it is stated
  have hmissing : ∀ u : ParseState,
      ((place.command.args.filter fun a => (u.found.find? a.id).isNone).any fun a =>
        a.required && a.default.isNone) = false ↔
      ∀ a ∈ place.command.args, (u.found.find? a.id).isNone → a.default = none →
        a.required = false := fun u => by
    simp only [List.any_eq_false, List.mem_filter]
    constructor
    · intro h a ha hnone hdefault
      simpa [hdefault] using h a ⟨ha, hnone⟩
    · rintro h a ⟨ha, hnone⟩
      cases hdefault : a.default with
      | none => simp [h a ha hnone hdefault]
      | some text => simp
  have hread := fun u : ParseState => @mapM_readDefault_iff
    (place.command.args.filter fun a => (u.found.find? a.id).isNone)
  rw [finish, Except.bind_ok_iff]
  refine exists_congr fun u => and_congr_right fun _ => ?_
  simp only [Except.bind_ok_iff, h]
  constructor
  · rintro ⟨defaults, hmap, hrest⟩
    obtain ⟨hdefaults, rfl⟩ := (hread u).1 hmap
    rw [if_neg (by simp)] at hrest
    split at hrest
    · cases hrest
    · rename_i hany
      cases hrest
      refine ⟨fun a ha hnone => ⟨?_, ?_⟩, rfl⟩
      · exact hdefaults a (List.mem_filter.2 ⟨ha, hnone⟩)
      · exact (hmissing u).1 (Bool.eq_false_iff.2 hany) a ha hnone
  · rintro ⟨hargs, rfl⟩
    refine ⟨_, (hread u).2 ⟨fun a ha => ?_, rfl⟩, ?_⟩
    · obtain ⟨ha, hnone⟩ := List.mem_filter.1 ha
      exact (hargs a ha hnone).1
    · rw [if_neg (by simp), if_neg ?_]
      · rfl
      · rw [(hmissing u).2 fun a ha hnone => (hargs a ha hnone).2]
        exact Bool.false_ne_true

end ParseState

/-! ## Words that two commands take -/

open ParseState in
/-- What is given to a command with some words is given to a command that takes its words, if that
does not miss anything and refuses no empty value. -/
theorem exists_given {strict : List String} {c d : CommandSpec} (hd : d.Takes strict c)
    {route : List String} {version : String} {words : List String} {parsed : Parsed}
    (h : parseFrom ⟨route, c, version⟩ {} words = .ok parsed) (route' : List String)
    (version' : String) :
    ∃ given : Matches, parsed = ⟨route, c.complete given⟩ ∧
      (∀ m ∈ given, ∃ a ∈ c.args, a.Records m) ∧
      (∀ a ∈ c.args, given.find? a.id = none → a.default = none → a.required = false) ∧
      (given.Spoiled strict ∨
        ((∀ b ∈ d.args, given.find? b.id = none → b.default = none → b.required = false) →
          parseFrom ⟨route', d, version'⟩ {} words = .ok ⟨route', d.complete given⟩)) := by
  rw [parseFrom_of_leaf hd.leaf.2] at h
  obtain ⟨s, hs, hfinish⟩ := Except.bind_ok_iff.1 h
  obtain ⟨found, hfound, rfl⟩ := Except.map_ok_iff.1 hfinish
  obtain ⟨u, hu, hargs, rfl⟩ := (finish_ok_iff hd.leaf.2).1 hfound
  -- All words are taken, and then what is still pending
  have htake : ∀ word, Follows strict c (·.take ⟨route', d, version'⟩ word)
      (·.take ⟨route, c, version⟩ word) := follows_take hd rfl rfl
  have hsteps := (Follows.foldlM htake words).bind (follows_resolve hd)
  obtain ⟨htidy, -, hfollows⟩ := hsteps {} u ⟨by simp, by simp, fun _ => rfl⟩
    (Except.bind_ok_iff.2 ⟨s, hs, hu⟩)
  refine ⟨u.found, rfl, htidy.found, fun a ha hnone => (hargs a ha (by simp [hnone])).2, ?_⟩
  -- Both start with nothing found or pending, so the first words are already alike
  rcases hfollows {} ⟨rfl, fun _ => rfl, by simp, rfl, rfl, rfl⟩ with hspoiled | ⟨v, hrun, hv⟩
  · exact Or.inl hspoiled
  · refine Or.inr fun hrequired => ?_
    have hdefaults : ∀ b ∈ d.args, ∀ text ∈ b.default, ∃ value, b.read text = .ok value := by
      intro b hb text htext
      have hok : (b.read text).isOk = true := by
        simpa [Option.mem_def.1 htext] using hd.defaults b hb
      cases hread : b.read text with
      | ok value => exact ⟨value, rfl⟩
      | error e => rw [hread] at hok; cases hok
    obtain ⟨t, ht, hresolve⟩ := Except.bind_ok_iff.1 hrun
    rw [parseFrom_of_leaf hd.leaf.1]
    refine Except.bind_ok_iff.2 ⟨t, ht, Except.map_ok_iff.2 ⟨_, (finish_ok_iff hd.leaf.1).2
      ⟨v, hresolve, fun b hb hnone => ⟨hdefaults b hb, ?_⟩, rfl⟩, ?_⟩⟩
    · rw [hv.found, Option.isNone_iff_eq_none] at hnone
      exact hrequired b hb hnone
    · rw [hv.found]

end BuilderControl.CommandLine
