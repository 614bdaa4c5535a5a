import Mathlib.Data.List.Forall2
import Mathlib.Data.List.TakeWhile
import BuilderControl.Proofs.Routing
import BuilderControl.Proofs.Streams

/-!
# Identities of printed objects

Objects are printed all or not at all.  One that states its identity is printed as it is, whatever
the registry says, and any other one gets the whole identity that the registry has for its type.
If there is none, nothing is printed, and the first object of this kind is reported.

## Key results

- `Identity.isEmpty_iff`: when an identity is of no use
- `Resource.isEncoding_ofJson`: what is read is as objects are encoded
- `Resource.IsEncoding.exists_printed`: how one object is printed
- `Router.emitObjects_all_or_nothing`: how a list of objects is printed
-/

namespace BuilderControl

/-! ## Identities -/

/-- There is no kind, or nothing behind the group of the API version. -/
def Identity.IsBlank (i : Identity) : Prop :=
  i.kind = "" ∨ i.apiVersion = "" ∨
    ∃ group : String, '/' ∉ group.toList ∧ i.apiVersion = group ++ "/"

/-- What comes before the first slash is the group. -/
private theorem dropWhile_group {group : List Char} (h : '/' ∉ group) (rest : List Char) :
    (group ++ '/' :: rest).dropWhile (· ≠ '/') = '/' :: rest := by
  rw [List.dropWhile_append_of_pos]
  · rfl
  · intro c hc
    rw [decide_eq_true_iff]
    rintro rfl
    exact h hc

/-- The version is empty if there is no API version, or nothing behind its group. -/
theorem Identity.version_eq_empty_iff {i : Identity} : i.version = "" ↔
    i.apiVersion = "" ∨ ∃ group : String, '/' ∉ group.toList ∧ i.apiVersion = group ++ "/" := by
  have hslash : ∀ group : String, (group ++ "/").toList = group.toList ++ ['/'] := fun group =>
    String.toList_append
  -- With a slash, the version is what follows the first one; without, it is all there is
  by_cases hmem : '/' ∈ i.apiVersion.toList
  · obtain ⟨group, rest, hsplit, hgroup⟩ := List.eq_append_cons_of_mem hmem
    have hversion : i.version = String.ofList rest := by
      simp only [version, hsplit, dropWhile_group hgroup]
      rfl
    rw [hversion, String.ofList_eq_empty_iff]
    constructor
    · rintro rfl
      refine .inr ⟨String.ofList group, String.toList_ofList.symm ▸ hgroup, ?_⟩
      rw [← String.toList_inj, hslash, String.toList_ofList, hsplit]
    · rintro (h | ⟨group', hgroup', h⟩)
      · rw [h] at hmem
        cases hmem
      · -- What stands before the first slash is the group
        rw [h, hslash] at hsplit
        have hdrop := congrArg (List.dropWhile (· ≠ '/')) hsplit
        rw [dropWhile_group hgroup', dropWhile_group hgroup] at hdrop
        exact (List.cons.inj hdrop).2.symm
  · have hall : i.apiVersion.toList.dropWhile (· ≠ '/') = [] := by
      rw [List.dropWhile_eq_nil_iff]
      intro c hc
      rw [decide_eq_true_iff]
      rintro rfl
      exact hmem hc
    have hversion : i.version = i.apiVersion := by
      simp only [version, hall]
      rfl
    rw [hversion, or_iff_left]
    rintro ⟨group, -, h⟩
    refine hmem ?_
    rw [h, hslash]
    simp

/-- An identity is of no use exactly if it is blank. -/
theorem Identity.isEmpty_iff {i : Identity} : i.isEmpty = true ↔ i.IsBlank := by
  rw [isEmpty, Bool.or_eq_true, decide_eq_true_iff, decide_eq_true_iff, version_eq_empty_iff, IsBlank,
    or_comm]

instance (i : Identity) : Decidable i.IsBlank := decidable_of_iff _ Identity.isEmpty_iff

/-! ## Objects as they are encoded -/

/-- The document is an object, and objects of core types state their identity in it. -/
structure Resource.IsEncoding (r : Resource) : Prop where
  isObject : r.document.isObject = true
  core : ∀ type, r.type = some type → type.isCore = true →
    r.document.get? "apiVersion" = some (.str type.apiVersion) ∧
      r.document.get? "kind" = some (.str type.name)

/-- What is read is as objects are encoded. -/
theorem Resource.isEncoding_ofJson {type : Option ResourceType} {j : Json} {r : Resource}
    (h : Resource.ofJson type j = .ok r) : r.IsEncoding := by
  obtain ⟨htype, -⟩ := Resource.ofJson_ok_iff.1 h
  refine ⟨Resource.isObject_ofJson h, fun t ht hcore => ?_⟩
  obtain rfl : type = some t := htype.symm.trans ht
  obtain ⟨t', ht', hstated⟩ := Resource.isPrintable_of_ofJson h
  cases ht.symm.trans ht'
  exact hstated hcore

/-- A new builder is as objects are encoded, and states no identity. -/
theorem Builder.isEncoding_new (account : Builder.Account) (ns : Option String) (name : String)
    (content : Builder.Content) : (Builder.new account ns name content).IsEncoding := by
  cases account <;> exact ⟨rfl, by rintro t ⟨⟩ hcore; cases hcore⟩

/-! ## One object -/

/-- A document states an identity. -/
def Json.States (document : Json) (i : Identity) : Prop :=
  document.get? "apiVersion" = some (.str i.apiVersion) ∧ document.get? "kind" = some (.str i.kind)

namespace Resource

/-- The object states no identity that is of use, and the registry has none for it. -/
def IsUnknown (registry : Registry) (r : Resource) : Prop :=
  r.identity.IsBlank ∧ r.type.bind registry.lookup = none

instance (registry : Registry) (r : Resource) : Decidable (r.IsUnknown registry) :=
  inferInstanceAs (Decidable (_ ∧ _))

/-- What an object is called where its type is not known. -/
def typeLabel (r : Resource) : String := (r.type.map ResourceType.name).getD "untyped object"

/-- The document that is printed for an object: its own, with the identity that it states, or else
with the one that the registry has for its type. -/
structure PrintedAs (registry : Registry) (r : Resource) (document : Json) : Prop where
  isObject : document.isObject = true
  rest : ∀ k, k ≠ "apiVersion" → k ≠ "kind" → document.get? k = r.document.get? k
  stated : ¬r.identity.IsBlank → document = r.document ∧ document.States r.identity
  registered : r.identity.IsBlank → ∃ i, r.type.bind registry.lookup = some i ∧ document.States i

variable {registry : Registry} {r : Resource}

/-- An encoded object states its identity, unless that is of no use. -/
theorem IsEncoding.states (h : r.IsEncoding) (hblank : ¬r.identity.IsBlank) :
    r.document.States r.identity := by
  -- Without an identity in its document, an object has none or that of a core type
  have hstated : r.identity = identity.stated r → r.document.States r.identity := by
    intro heq
    rw [heq] at hblank ⊢
    rw [identity.stated] at hblank ⊢
    split
    · rename_i version kind hversion hkind
      exact ⟨hversion, hkind⟩
    · rename_i hnone
      split at hblank
      · rename_i version kind hversion hkind
        exact absurd hkind (hnone version kind hversion)
      · exact absurd (.inl rfl) hblank
  cases htype : r.type with
  | none => exact hstated (by rw [identity, htype])
  | some type =>
    cases hcore : type.isCore with
    | true =>
      have hidentity : r.identity = type.identity := by simp only [identity, htype, hcore, if_true]
      rw [hidentity]
      exact h.core type htype hcore
    | false => exact hstated (by simp only [identity, htype, hcore, Bool.false_eq_true, if_false])

/-- An object that states an identity is printed as it is, whatever the registry has. -/
theorem printed_of_stated (h : ¬r.identity.IsBlank) :
    Router.printed registry r = .ok r.document := by
  have hempty : r.identity.isEmpty = false := by
    rw [← Bool.not_eq_true, Identity.isEmpty_iff]
    exact h
  simp only [Router.printed, hempty, Bool.not_false, if_true]

/-- An unknown object is reported by its type. -/
theorem printed_of_isUnknown (h : r.IsUnknown registry) :
    Router.printed registry r = .error (.unknownType r.typeLabel) := by
  obtain ⟨hblank, hlookup⟩ := h
  rw [← Identity.isEmpty_iff] at hblank
  simp only [Router.printed, hblank, Bool.not_true, Bool.false_eq_true, if_false, typeLabel]
  cases htype : r.type with
  | none => rfl
  | some type =>
    rw [htype, Option.bind_some] at hlookup
    simp only [hlookup]
    rfl

/-- An object without an identity is printed with the one that is registered. -/
theorem printed_of_registered {i : Identity} (h : r.identity.IsBlank)
    (hlookup : r.type.bind registry.lookup = some i) : Router.printed registry r =
      .ok ((r.document.set "apiVersion" (.str i.apiVersion)).set "kind" (.str i.kind)) := by
  rw [← Identity.isEmpty_iff] at h
  simp only [Router.printed, h, Bool.not_true, Bool.false_eq_true, if_false]
  cases htype : r.type with
  | none =>
    rw [htype] at hlookup
    cases hlookup
  | some type =>
    rw [htype, Option.bind_some] at hlookup
    simp only [hlookup]

/-- An object that is not unknown is printed. -/
theorem IsEncoding.exists_printed (h : r.IsEncoding) (hknown : ¬r.IsUnknown registry) :
    ∃ document, Router.printed registry r = .ok document ∧ r.PrintedAs registry document := by
  by_cases hblank : r.identity.IsBlank
  · cases hlookup : r.type.bind registry.lookup with
    | none => exact absurd ⟨hblank, hlookup⟩ hknown
    | some i =>
      refine ⟨_, printed_of_registered hblank hlookup, rfl, fun k hversion hkind => ?_,
        fun hne => absurd hblank hne, fun _ => ⟨i, hlookup, ?_, ?_⟩⟩
      · -- Only the two keys of the identity are set
        rw [Json.get?_set, if_neg hkind, Json.get?_set, if_neg hversion]
      · rw [Json.get?_set, if_neg (by decide), Json.get?_set, if_pos rfl]
      · rw [Json.get?_set, if_pos rfl]
  · exact ⟨_, printed_of_stated hblank, h.isObject, fun _ _ _ => rfl,
      fun _ => ⟨rfl, h.states hblank⟩, fun h => absurd h hblank⟩

end Resource

/-! ## Lists of objects -/

/-- The first error ends a pass over a list. -/
private theorem mapM_of_error {α β ε : Type} {f : α → Except ε β} {before after : List α} {a : α}
    {e : ε} (hbefore : ∀ b ∈ before, ∃ c, f b = .ok c) (ha : f a = .error e) :
    (before ++ a :: after).mapM f = .error e := by
  induction before with
  | nil =>
    rw [List.nil_append, List.mapM_cons, ha]
    rfl
  | cons b before ih =>
    obtain ⟨c, hc⟩ := hbefore b List.mem_cons_self
    rw [List.cons_append, List.mapM_cons, hc, ih fun b hb => hbefore b (List.mem_cons_of_mem _ hb)]
    rfl

/-- A pass over a list succeeds if it does for each element, and relates them one by one. -/
private theorem exists_mapM {α β ε : Type} {f : α → Except ε β} {R : α → β → Prop} {l : List α}
    (h : ∀ a ∈ l, ∃ b, f a = .ok b ∧ R a b) : ∃ bs, l.mapM f = .ok bs ∧ List.Forall₂ R l bs := by
  induction l with
  | nil => exact ⟨[], rfl, .nil⟩
  | cons a l ih =>
    obtain ⟨b, hb, hR⟩ := h a List.mem_cons_self
    obtain ⟨bs, hbs, hRs⟩ := ih fun a ha => h a (List.mem_cons_of_mem _ ha)
    refine ⟨b :: bs, ?_, .cons hR hRs⟩
    rw [List.mapM_cons, hb, hbs]
    rfl

/-- If some element has a property, there is a first one that has it. -/
private theorem exists_first {α : Type} {P : α → Prop} {l : List α} (h : ∃ a ∈ l, P a) :
    ∃ before a after, l = before ++ a :: after ∧ (∀ b ∈ before, ¬P b) ∧ P a := by
  induction l with
  | nil =>
    obtain ⟨a, ha, -⟩ := h
    cases ha
  | cons a l ih =>
    by_cases hP : P a
    · exact ⟨[], a, l, rfl, by simp, hP⟩
    · obtain ⟨b, hb, hPb⟩ := h
      rcases List.mem_cons.1 hb with rfl | hb
      · exact absurd hPb hP
      · obtain ⟨before, c, after, rfl, hbefore, hc⟩ := ih ⟨b, hb, hPb⟩
        refine ⟨a :: before, c, after, rfl, fun d hd => ?_, hc⟩
        rcases List.mem_cons.1 hd with rfl | hd
        · exact hP
        · exact hbefore d hd

namespace Router

/-- Objects are printed one document each, in order. -/
structure PrintsEach (r : Router) (format : Format) (objects : List Resource)
    (documents : List Json) : Prop where
  each : List.Forall₂ (Resource.PrintedAs r.registry) objects documents
  /-- No document is empty, and the next one starts on a new line. -/
  texts : ∀ document ∈ documents, ∃ body, format.document document = body ++ "\n"
  /-- Everything is written, as far as there is room for it. -/
  router : (r.emitObjects objects).2 =
    { r with out := (r.out.writeText (String.join (documents.map format.document))).2 }
  result : (r.emitObjects objects).1 = .ok () ↔
    r.out.Fits (String.join (documents.map format.document))

/-- If one of the objects is unknown, the first such is reported and nothing is written.  Otherwise
all of them are printed. -/
theorem emitObjects_all_or_nothing {r : Router} {format : Format} (hformat : r.format = some format)
    {objects : List Resource} (hobjects : ∀ o ∈ objects, o.IsEncoding) :
    ((∃ o ∈ objects, o.IsUnknown r.registry) → ∃ before o after, objects = before ++ o :: after ∧
      (∀ b ∈ before, ¬b.IsUnknown r.registry) ∧ o.IsUnknown r.registry ∧
      r.emitObjects objects = (.error (.unknownType o.typeLabel), r)) ∧
    ((∀ o ∈ objects, ¬o.IsUnknown r.registry) → ∃ documents, r.PrintsEach format objects documents) ∧
    ∀ o ∈ objects, ¬o.identity.IsBlank → ∀ registry, printed registry o = .ok o.document := by
  -- With an unknown object, or without one
  refine ⟨fun hunknown => ?_, fun hknown => ?_, fun o _ hblank _ => Resource.printed_of_stated hblank⟩
  · obtain ⟨before, o, after, rfl, hbefore, ho⟩ := exists_first hunknown
    -- All before the first unknown object can be printed, so this one ends the pass
    have herror : (before ++ o :: after).mapM (printed r.registry) =
        .error (.unknownType o.typeLabel) := by
      refine mapM_of_error (fun b hb => ?_) (Resource.printed_of_isUnknown ho)
      obtain ⟨document, hdocument, -⟩ :=
        (hobjects b (List.mem_append_left _ hb)).exists_printed (hbefore b hb)
      exact ⟨document, hdocument⟩
    refine ⟨before, o, after, rfl, hbefore, ho, ?_⟩
    simp only [emitObjects, hformat, herror]
  · obtain ⟨documents, hdocuments, hprinted⟩ := exists_mapM fun o ho =>
      (hobjects o ho).exists_printed (hknown o ho)
    -- Nothing is written before all documents are made
    have hemit : r.emitObjects objects = ((r.out.writePieces (documents.flatMap format.pieces)).1,
        { r with out := (r.out.writePieces (documents.flatMap format.pieces)).2 }) := by
      simp only [emitObjects, hformat, hdocuments]
    refine ⟨documents, hprinted, fun document _ => format.exists_document_eq document, ?_, ?_⟩
    · rw [hemit, Sink.writePieces_eq, Sink.joined_flatMap_pieces]
    · rw [hemit, Sink.writePieces_eq_ok_iff, Sink.joined_flatMap_pieces]

/-- A builder without an identity is printed with that of the registry.  With an object that has a
group but no version, nothing is printed. -/
theorem emitObjects_all_or_nothing_pods :
    let builder : Resource := ⟨some .builder, .obj [("metadata", .obj [("name", .str "b")])]⟩
    let pod : Resource := ⟨none, .obj [("apiVersion", .str "v1"), ("kind", .str "Pod")]⟩
    let half : Resource := ⟨none, .obj [("apiVersion", .str "group/"), ("kind", .str "Pod")]⟩
    let r : Router := ⟨false, some .yaml, ({} : Registry).insert .builder ⟨"group/v2", "B"⟩, {}, {}⟩
    (∃ documents, r.PrintsEach .yaml [builder, pod] documents) ∧
      r.emitObjects [builder, pod] = (.ok (), { r with out := (r.out.writeText
        ("---\napiVersion: group/v2\nkind: B\nmetadata:\n  name: b\n" ++
          "---\napiVersion: v1\nkind: Pod\n")).2 }) ∧
      r.emitObjects [pod, half, builder] = (.error (.unknownType "untyped object"), r) := by
  intro builder pod half r
  have hencoding : ∀ o ∈ [pod, half, builder], o.IsEncoding := by
    intro o ho
    simp only [List.mem_cons, List.not_mem_nil, or_false] at ho
    rcases ho with rfl | rfl | rfl
    · exact ⟨rfl, by rintro t ⟨⟩⟩
    · exact ⟨rfl, by rintro t ⟨⟩⟩
    · exact ⟨rfl, by rintro t ⟨⟩ hcore; cases hcore⟩
  refine ⟨?_, ?_, ?_⟩
  · have hobjects : ∀ o ∈ [builder, pod], o.IsEncoding := fun o ho =>
      hencoding o (by simp at ho ⊢; tauto)
    exact (@emitObjects_all_or_nothing r .yaml rfl [builder, pod] hobjects).2.1 (by decide)
  · decide +kernel
  · obtain ⟨before, o, after, heq, -, ho, hemit⟩ :=
      (@emitObjects_all_or_nothing r .yaml rfl _ hencoding).1 ⟨half, by simp, by decide⟩
    have hmem : o ∈ [pod, half, builder] := by
      rw [heq]
      simp
    simp only [List.mem_cons, List.not_mem_nil, or_false] at hmem
    -- The first unknown object can only be the one with half an identity
    rcases hmem with rfl | rfl | rfl
    · exact absurd ho (by decide)
    · exact hemit
    · exact absurd ho (by decide)

end Router

end BuilderControl
