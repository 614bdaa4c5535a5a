import BuilderControl.Proofs.CommandLines

/-!
# Flags in words

The flags that shape a mode are declared by a command or not, with values of any type and with any
default.  A word names a flag, with a value behind an equals sign, or with a value that is the next
word, or without one.  What some words give does not depend on the flags that are declared but not
named in them.

## Key results

- `Declarations.Gives`: how the flags that are given are written in words
- `Declarations.Gives.unique`: words can be read in one way
-/

namespace BuilderControl.CommandLine

/-! ## Flags -/

/-- A flag that shapes the mode of an invocation. -/
inductive ModeFlag where
  | dryRun
  | output
  | wait
deriving DecidableEq

namespace ModeFlag

def id : ModeFlag → String
  | dryRun => "dry_run"
  | output => "output"
  | wait => "wait"

def name : ModeFlag → String
  | dryRun => "dry-run"
  | output => "output"
  | wait => "wait"

/-- What the values of a flag have to be. -/
def expected : ModeFlag → FlagType
  | output => .text
  | dryRun | wait => .bool

/-- How a flag is written, with a value behind an equals sign or without one. -/
def word (f : ModeFlag) (attached : Option String) : String :=
  "--" ++ f.name ++ attached.elim "" ("=" ++ ·)

/-- Flags are told apart by how they are recorded. -/
theorem eq_of_id {f g : ModeFlag} (h : f.id = g.id) : f = g := by
  cases f <;> cases g <;> first | rfl | exact absurd h (by decide)

/-- Flags are told apart by their names. -/
theorem eq_of_name {f g : ModeFlag} (h : f.name = g.name) : f = g := by
  cases f <;> cases g <;> first | rfl | exact absurd h (by decide)

/-- There is no equals sign in the name of a flag, so the first one ends it. -/
theorem equals_not_mem_name (f : ModeFlag) : '=' ∉ f.name.toList := by
  cases f <;> decide

/-- What stands behind the name of a flag. -/
private def tail (attached : Option String) : List Char :=
  attached.elim [] ('=' :: ·.toList)

/-- The characters of a flag: two dashes, its name, and what stands behind it. -/
private theorem toList_word (f : ModeFlag) (attached : Option String) :
    (f.word attached).toList = '-' :: '-' :: (f.name.toList ++ tail attached) := by
  cases attached <;> simp [word, tail]

/-- What stands behind the name tells the value, and whether there is one. -/
private theorem tail_inj {a b : Option String} (h : tail a = tail b) : a = b := by
  cases a <;> cases b
  · rfl
  · cases h
  · cases h
  · rw [String.toList_inj.1 (List.tail_eq_of_cons_eq h)]

/-- A word names one flag, with one value or with none. -/
theorem word_inj {f g : ModeFlag} {a b : Option String} (h : f.word a = g.word b) :
    f = g ∧ a = b := by
  -- The name is what comes before the first equals sign
  have hname : ∀ (f : ModeFlag) (a : Option String),
      (f.name.toList ++ tail a).takeWhile (· ≠ '=') = f.name.toList := by
    intro f a
    have hname : ∀ c ∈ f.name.toList, decide (c ≠ '=') = true := by
      intro c hc
      exact decide_eq_true fun h => f.equals_not_mem_name (h ▸ hc)
    rw [List.takeWhile_append_of_pos hname]
    cases a <;> simp [tail]
  rw [← String.toList_inj, toList_word, toList_word] at h
  have hrest := List.tail_eq_of_cons_eq (List.tail_eq_of_cons_eq h)
  have hnames := congrArg (List.takeWhile (· ≠ '=')) hrest
  rw [hname, hname, String.toList_inj] at hnames
  obtain rfl := eq_of_name hnames
  exact ⟨rfl, tail_inj (List.append_cancel_left hrest)⟩

/-- No flag is written as two dashes alone. -/
theorem word_ne_dashes (f : ModeFlag) (attached : Option String) : f.word attached ≠ "--" := by
  rw [Ne, ← String.toList_inj, toList_word]
  cases f <;> simp [name]

/-- The value behind an equals sign. -/
def attached? (rest : List Char) : Option String :=
  match rest.dropWhile (· ≠ '=') with
  | [] => none
  | _ :: value => some (String.ofList value)

/-- A word that starts with the name of a flag. -/
theorem eq_word {f : ModeFlag} {word : String} {rest : List Char}
    (hword : word.toList = '-' :: '-' :: rest)
    (hname : String.ofList (rest.takeWhile (· ≠ '=')) = f.name) :
    word = f.word (attached? rest) := by
  rw [← String.toList_inj, toList_word, hword, ← hname, String.toList_ofList]
  congr 2
  conv => lhs; rw [← List.takeWhile_append_dropWhile (p := (· ≠ '=')) (l := rest)]
  congr 1
  rw [attached?]
  -- What is left starts with an equals sign, or there is nothing left
  cases hdrop : rest.dropWhile (· ≠ '=') with
  | nil => rfl
  | cons c value =>
    have hc := List.head?_dropWhile_not (· ≠ '=') rest
    rw [hdrop] at hc
    obtain rfl : c = '=' := by simpa using hc
    simp [tail]

end ModeFlag

/-! ## Declarations -/

/-- What a value of a flag is. -/
inductive FlagValue where
  | text
  | number
  | truth

namespace FlagValue

def type : FlagValue → FlagType
  | text => .text
  | number => .unsigned64
  | truth => .bool

def valueType : FlagValue → ValueType
  | text => .text
  | number => .unsigned64
  | truth => .truth

end FlagValue

/-- How a flag is declared: it is turned on, or counted, or has a value that is given once, or one
that may be given more than once. -/
inductive FlagKind where
  | switch
  | count
  | once (value : FlagValue)
  | repeated (value : FlagValue)

namespace FlagKind

def takesValue : FlagKind → Bool
  | switch | count => false
  | once _ | repeated _ => true

def action : FlagKind → ArgAction
  | switch => .switch
  | count => .count
  | once _ => .set
  | repeated _ => .append

/-- What the values have to be. -/
def valueType : FlagKind → ValueType
  | switch => .truth
  | count => .unsigned64
  | once value | repeated value => value.valueType

/-- Type of the values as a command sees them. -/
def type : FlagKind → FlagType
  | switch => .bool
  | count => .count
  | once value | repeated value => value.type

/-- A flag that takes a value takes one of a given type. -/
theorem exists_value {kind : FlagKind} (h : kind.takesValue = true) :
    ∃ value : FlagValue, kind.valueType = value.valueType ∧ kind.type = value.type := by
  cases kind with
  | switch | count => cases h
  | once value | repeated value => exact ⟨value, rfl, rfl⟩

end FlagKind

/-- An argument that declares a flag.  Its default, its help and whether it is required are left
open. -/
structure Arg.Declares (a : Arg) (f : ModeFlag) (kind : FlagKind) : Prop where
  id : a.id = f.id
  short : a.short = none
  long : a.long = some f.name
  action : a.action = kind.action
  type : a.type = kind.valueType

namespace Arg.Declares

variable {a : Arg} {f : ModeFlag} {kind : FlagKind} (h : a.Declares f kind)
include h

/-- Whether the argument takes a value is up to the kind of the flag. -/
theorem takesValue_eq : a.takesValue = kind.takesValue := by
  rw [Arg.takesValue, h.action]
  cases kind <;> rfl

/-- The type of the values is up to the kind of the flag. -/
theorem flagType_eq : a.flagType = kind.type := by
  rw [Arg.flagType, h.action, h.type]
  cases kind with
  | switch | count => rfl
  | once value | repeated value => cases value <;> rfl

end Arg.Declares

/-- Which flags are declared, and how. -/
structure Declarations where
  kind? : ModeFlag → Option FlagKind

/-- A command without subcommands that declares some flags, in any order, and its help. -/
structure CommandSpec.Declares (c : CommandSpec) (d : Declarations) : Prop where
  leaf : c.subcommands = []
  args : ∀ a ∈ c.args, a = helpArg ∨ ∃ f kind, d.kind? f = some kind ∧ a.Declares f kind
  declared : ∀ f kind, d.kind? f = some kind → ∃ a ∈ c.args, a.Declares f kind

/-- A command that declares flags only has no positional arguments. -/
theorem CommandSpec.Declares.positionals {c : CommandSpec} {d : Declarations} (h : c.Declares d) :
    c.positionals = [] := by
  rw [CommandSpec.positionals, List.filter_eq_nil_iff]
  intro a ha
  rcases h.args a ha with rfl | ⟨f, kind, -, hdeclares⟩
  · decide
  · simp [Arg.isPositional, hdeclares.long]

/-! ## What is given -/

/-- A flag that was given, with a value or without one. -/
structure Given where
  flag : ModeFlag
  value : Option String

namespace Given

/-- A flag without a value is on. -/
def isOn (g : Given) : Bool := g.value.all (· = "true")

/-- The value that is read, if it is of the type that it has to be of. -/
def read (g : Given) : Option ArgValue :=
  match g.flag with
  | .output => g.value.map .text
  | .dryRun | .wait => some (.truth g.isOn)

end Given

namespace Declarations

/-- What some words give: flags in turn, and perhaps two dashes at the end. -/
inductive Gives (d : Declarations) : List String → List Given → Prop
  | nil : Gives d [] []
  | dashes : Gives d ["--"] []
  | bare {f : ModeFlag} {kind : FlagKind} {words : List String} {given : List Given}
    (hf : d.kind? f = some kind) (htakes : kind.takesValue = false) (h : Gives d words given) :
    Gives d (f.word none :: words) (⟨f, none⟩ :: given)
  | attached {f : ModeFlag} {kind : FlagKind} {value : String} {words : List String}
    {given : List Given} (hf : d.kind? f = some kind) (htakes : kind.takesValue = true)
    (h : Gives d words given) :
    Gives d (f.word (some value) :: words) (⟨f, some value⟩ :: given)
  | next {f : ModeFlag} {kind : FlagKind} {value : String} {words : List String}
    {given : List Given} (hf : d.kind? f = some kind) (htakes : kind.takesValue = true)
    (hvalue : startsOption value = false) (h : Gives d words given) :
    Gives d (f.word none :: value :: words) (⟨f, some value⟩ :: given)

/-- Only declared flags are given. -/
theorem Gives.declared {d : Declarations} {words : List String} {given : List Given}
    (h : d.Gives words given) : ∀ g ∈ given, ∃ kind, d.kind? g.flag = some kind := by
  induction h with
  | nil | dashes => simp
  | bare hf _ _ ih | attached hf _ _ ih | next hf _ _ _ ih =>
    exact List.forall_mem_cons.2 ⟨⟨_, hf⟩, ih⟩

/-- Two dashes at the end give no flag. -/
theorem Gives.of_dashes {d : Declarations} {given : List Given} (h : d.Gives ["--"] given) :
    given = [] := by
  generalize hwords : ["--"] = words at h
  cases h with
  | nil => rfl
  | dashes => rfl
  | bare | attached | next =>
    exact absurd (List.head_eq_of_cons_eq hwords).symm (ModeFlag.word_ne_dashes _ _)

/-- A flag with a value behind an equals sign. -/
theorem Gives.of_attached {d : Declarations} {f : ModeFlag} {value : String} {words : List String}
    {given : List Given} (h : d.Gives (f.word (some value) :: words) given) :
    ∃ rest, given = ⟨f, some value⟩ :: rest ∧ d.Gives words rest := by
  -- The first word is that of one flag with a value, which leaves one case
  generalize hwords : f.word (some value) :: words = all at h
  cases h with
  | nil => cases hwords
  | dashes => exact absurd (List.head_eq_of_cons_eq hwords) (ModeFlag.word_ne_dashes _ _)
  | bare | next => cases (ModeFlag.word_inj (List.head_eq_of_cons_eq hwords)).2
  | attached _ _ h =>
    obtain ⟨rfl, hvalue⟩ := ModeFlag.word_inj (List.head_eq_of_cons_eq hwords)
    cases hvalue
    cases hwords
    exact ⟨_, rfl, h⟩

/-- A flag alone: its kind tells whether its value is the next word. -/
theorem Gives.of_bare {d : Declarations} {f : ModeFlag} {words : List String} {given : List Given}
    (h : d.Gives (f.word none :: words) given) :
    ∃ kind, d.kind? f = some kind ∧
      ((kind.takesValue = false ∧ ∃ rest, given = ⟨f, none⟩ :: rest ∧ d.Gives words rest) ∨
        (kind.takesValue = true ∧ ∃ value more rest, words = value :: more ∧
          given = ⟨f, some value⟩ :: rest ∧ d.Gives more rest)) := by
  -- A word without a value is that of a flag that takes none, or that takes the next word
  generalize hwords : f.word none :: words = all at h
  cases h with
  | nil => cases hwords
  | dashes => exact absurd (List.head_eq_of_cons_eq hwords) (ModeFlag.word_ne_dashes _ _)
  | attached => cases (ModeFlag.word_inj (List.head_eq_of_cons_eq hwords)).2
  | bare hf htakes h =>
    obtain ⟨rfl, -⟩ := ModeFlag.word_inj (List.head_eq_of_cons_eq hwords)
    cases hwords
    exact ⟨_, hf, Or.inl ⟨htakes, _, rfl, h⟩⟩
  | next hf htakes _ h =>
    obtain ⟨rfl, -⟩ := ModeFlag.word_inj (List.head_eq_of_cons_eq hwords)
    cases hwords
    exact ⟨_, hf, Or.inr ⟨htakes, _, _, _, rfl, rfl, h⟩⟩

/-- The flags that were given are declared in the same way, wherever they are declared. -/
def Agree (d d' : Declarations) (given : List Given) : Prop :=
  ∀ g ∈ given, ∀ kind kind', d.kind? g.flag = some kind → d'.kind? g.flag = some kind' →
    kind' = kind

/-- Words can be read in one way. -/
theorem Gives.unique {d d' : Declarations} {words : List String} {given given' : List Given}
    (h : d.Gives words given) (h' : d'.Gives words given') (hagree : d.Agree d' given) :
    given' = given := by
  -- On the first reading: its first word leaves the second one no choice
  induction h generalizing given' with
  | nil =>
    cases h'
    rfl
  | dashes => exact h'.of_dashes
  | attached _ _ _ ih =>
    obtain ⟨rest, rfl, hrest⟩ := h'.of_attached
    rw [ih hrest (List.forall_mem_cons.1 hagree).2]
  | bare hf htakes _ ih =>
    obtain ⟨hfirst, hlater⟩ := List.forall_mem_cons.1 hagree
    -- Both declarations say that the flag takes no value
    obtain ⟨kind', hkind', ⟨-, rest, rfl, hrest⟩ | ⟨htakes', -⟩⟩ := h'.of_bare
    · rw [ih hrest hlater]
    · rw [hfirst _ _ hf hkind', htakes] at htakes'
      cases htakes'
  | next hf htakes _ _ ih =>
    obtain ⟨hfirst, hlater⟩ := List.forall_mem_cons.1 hagree
    obtain ⟨kind', hkind', ⟨htakes', -⟩ | ⟨-, value, more, rest, hwords, rfl, hrest⟩⟩ := h'.of_bare
    · rw [hfirst _ _ hf hkind', htakes] at htakes'
      cases htakes'
    · cases hwords
      rw [ih hrest hlater]

end Declarations

end BuilderControl.CommandLine
