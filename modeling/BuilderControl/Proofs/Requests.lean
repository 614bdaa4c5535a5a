import BuilderControl.Command
import BuilderControl.Proofs.KeyOrder
import BuilderControl.Proofs.Put

/-!
# Requests for changes

A request names the values that are to be changed, and perhaps a file with an order.  What is read of
it are these values and the entries of that file, where a value that is empty counts as none.  Each
value has its place in the spec of a builder.

## Key results

- `Command.ChangeRequest.read_eq_ok_iff`: what is read of a request
- `Builder.Changes.document_apply`: changes set values at their places of the spec
- `Command.mem_places_iff`: the values that are set are those that are asked for
-/

namespace BuilderControl

open Json

/-! ## What is read -/

namespace Command.ChangeRequest

variable {request : ChangeRequest} {files : Files}

/-- What is read of a request: its values that are not empty, and the entries of its order file. -/
structure Reads (request : ChangeRequest) (files : Files) (changes : Builder.Changes) : Prop where
  tag : changes.tag = request.tag.filter (· ≠ "")
  stack : changes.stack = request.stack.filter (· ≠ "")
  store : changes.store = request.store.filter (· ≠ "")
  order : (request.order.filter (· ≠ "") = none ∧ changes.order = none) ∨
    ∃ path entries, request.order = some path ∧ path ≠ "" ∧
      Order.ofFile files path = .ok entries ∧ changes.order = some entries

/-- A value that is not left out was given, and not as an empty one. -/
theorem filter_eq_some_iff {value : Option String} {text : String} :
    value.filter (· ≠ "") = some text ↔ value = some text ∧ text ≠ "" := by
  rw [Option.filter_eq_some_iff, decide_eq_true_iff]

/-- Changes are not read if their order file is not. -/
theorem read_error {path : String} (h : request.order.filter (· ≠ "") = some path) {e : Error}
    (hfile : Order.ofFile files path = .error e) : request.read files = .error e := by
  simp only [read, h, Option.mapM_some, hfile]
  rfl

/-- Nothing but the order file can make reading fail, and nothing is made up. -/
theorem read_eq_ok_iff {changes : Builder.Changes} :
    request.read files = .ok changes ↔ request.Reads files changes := by
  obtain ⟨tag, stack, store, order⟩ := changes
  constructor
  · intro h
    obtain ⟨read, hread, h⟩ := Except.bind_ok_iff.1 h
    cases h
    refine ⟨rfl, rfl, rfl, ?_⟩
    replace hread : (request.order.filter (· ≠ "")).mapM (Order.ofFile files) = .ok order := hread
    -- Without a file there is no order, and with one it is what the file holds
    cases hpath : request.order.filter (· ≠ "") with
    | none =>
      rw [hpath] at hread
      cases hread
      exact .inl ⟨rfl, rfl⟩
    | some path =>
      rw [hpath] at hread
      obtain ⟨entries, hentries, rfl⟩ := Except.map_ok_iff.1
        (show (Order.ofFile files path).map some = .ok order from hread)
      obtain ⟨hgiven, hne⟩ := filter_eq_some_iff.1 hpath
      exact .inr ⟨path, entries, hgiven, hne, hentries, rfl⟩
  · rintro ⟨rfl, rfl, rfl, ⟨hnone, rfl⟩ | ⟨path, entries, hgiven, hne, hread, rfl⟩⟩
    · simp only [read, hnone]
      rfl
    · simp only [read, filter_eq_some_iff.2 ⟨hgiven, hne⟩, Option.mapM_some, hread]
      rfl

/-- The order that is read is that of a file. -/
theorem Reads.exists_ofFile {changes : Builder.Changes} (h : request.Reads files changes)
    {order : List Json} (ho : changes.order = some order) :
    ∃ path, Order.ofFile files path = .ok order := by
  rcases h.order with ⟨-, hnone⟩ | ⟨path, entries, -, -, hread, hsome⟩
  · cases hnone.symm.trans ho
  · cases hsome.symm.trans ho
    exact ⟨path, hread⟩

/-- A value that is asked for, with its place in the spec of a builder. -/
inductive Asks (request : ChangeRequest) (files : Files) : String × List String × Json → Prop
  | tag {tag : String} (h : request.tag = some tag) (hne : tag ≠ "") :
    Asks request files ("tag", [], .str tag)
  | stack {name : String} (h : request.stack = some name) (hne : name ≠ "") :
    Asks request files ("stack", ["name"], .str name)
  | store {name : String} (h : request.store = some name) (hne : name ≠ "") :
    Asks request files ("store", ["name"], .str name)
  | order {path : String} {entries : List Json} (h : request.order = some path) (hne : path ≠ "")
    (hread : Order.ofFile files path = .ok entries) :
    Asks request files ("order", [], .arr entries)

end Command.ChangeRequest

/-! ## Places that are changed -/

namespace Builder

/-- The values that are to be set, by their places in the spec. -/
def Changes.places (c : Changes) : Placements :=
  (c.tag.map fun tag => ("tag", [], Json.str tag)).toList ++
    (c.stack.map fun name => ("stack", ["name"], Json.str name)).toList ++
    (c.store.map fun name => ("store", ["name"], Json.str name)).toList ++
    (c.order.map fun order => ("order", [], Json.arr order)).toList

/-- A changed builder has the values at their places, and is the same elsewhere. -/
theorem Changes.document_apply (c : Changes) (builder : Resource) :
    (c.apply builder).document = builder.document.set "spec"
      ((Json.ofOption (builder.document.get? "spec")).putAll c.places) := by
  obtain ⟨_ | tag, _ | stack, _ | store, _ | order⟩ := c <;> rfl

/-- Each value is a text, or the entries of the order. -/
theorem Changes.mem_places_iff {c : Changes} {p : String × List String × Json} :
    p ∈ c.places ↔ (∃ tag, c.tag = some tag ∧ p = ("tag", [], .str tag)) ∨
      (∃ name, c.stack = some name ∧ p = ("stack", ["name"], .str name)) ∨
      (∃ name, c.store = some name ∧ p = ("store", ["name"], .str name)) ∨
      ∃ order, c.order = some order ∧ p = ("order", [], .arr order) := by
  simp only [places, List.mem_append, Option.mem_toList, Option.map_eq_some_iff, or_assoc,
    eq_comm (b := p)]

/-- The values can be set by a patch if the entries of the order can. -/
theorem Changes.settable_places {c : Changes}
    (h : ∀ order, c.order = some order → (Json.arr order).WellFormed) : c.places.Settable where
  distinct := by
    obtain ⟨_ | tag, _ | stack, _ | store, _ | order⟩ := c <;> simp [places]
  wellFormed p hp := by
    rcases mem_places_iff.1 hp with ⟨_, -, rfl⟩ | ⟨_, -, rfl⟩ | ⟨_, -, rfl⟩ | ⟨order, ho, rfl⟩
    · trivial
    · trivial
    · trivial
    · exact h order ho
  not_isObject p hp := by
    rcases mem_places_iff.1 hp with ⟨_, -, rfl⟩ | ⟨_, -, rfl⟩ | ⟨_, -, rfl⟩ | ⟨_, -, rfl⟩ <;> rfl
  ne_null p hp := by
    rcases mem_places_iff.1 hp with ⟨_, -, rfl⟩ | ⟨_, -, rfl⟩ | ⟨_, -, rfl⟩ | ⟨_, -, rfl⟩ <;> simp

end Builder

/-! ## Places that are asked for -/

namespace Command

variable {request : ChangeRequest} {files : Files} {changes : Builder.Changes}

/-- What is read can be set by a patch. -/
theorem settable_of_read (h : request.read files = .ok changes) : changes.places.Settable :=
  Builder.Changes.settable_places fun _ ho => by
    obtain ⟨path, hpath⟩ := (ChangeRequest.read_eq_ok_iff.1 h).exists_ofFile ho
    exact Order.wellFormed_ofFile hpath

/-- Of what is asked for, nothing is left out and nothing is added. -/
theorem mem_places_iff (h : request.read files = .ok changes) {p : String × List String × Json} :
    p ∈ changes.places ↔ request.Asks files p := by
  obtain ⟨htag, hstack, hstore, horder⟩ := ChangeRequest.read_eq_ok_iff.1 h
  rw [Builder.Changes.mem_places_iff, htag, hstack, hstore]
  simp only [ChangeRequest.filter_eq_some_iff]
  constructor
  · rintro (⟨tag, ⟨hgiven, hne⟩, rfl⟩ | ⟨name, ⟨hgiven, hne⟩, rfl⟩ | ⟨name, ⟨hgiven, hne⟩, rfl⟩ |
      ⟨entries, hentries, rfl⟩)
    · exact .tag hgiven hne
    · exact .stack hgiven hne
    · exact .store hgiven hne
    · rcases horder with ⟨-, hnone⟩ | ⟨path, read, hgiven, hne, hread, hsome⟩
      · cases hnone.symm.trans hentries
      · cases hsome.symm.trans hentries
        exact .order hgiven hne hread
  · intro hasks
    cases hasks with
    | tag hgiven hne => exact .inl ⟨_, ⟨hgiven, hne⟩, rfl⟩
    | stack hgiven hne => exact .inr (.inl ⟨_, ⟨hgiven, hne⟩, rfl⟩)
    | store hgiven hne => exact .inr (.inr (.inl ⟨_, ⟨hgiven, hne⟩, rfl⟩))
    | @order path entries hgiven hne hread =>
      -- The file that is named is the one that was read
      rcases horder with ⟨hnone, -⟩ | ⟨path', entries', hgiven', -, hread', hsome⟩
      · cases hnone.symm.trans (ChangeRequest.filter_eq_some_iff.2 ⟨hgiven, hne⟩)
      · cases hgiven'.symm.trans hgiven
        cases hread'.symm.trans hread
        exact .inr (.inr (.inr ⟨entries, hsome, rfl⟩))

end Command

end BuilderControl
