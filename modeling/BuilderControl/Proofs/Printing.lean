import BuilderControl.Invocation
import BuilderControl.Proofs.BuilderDocuments
import BuilderControl.Proofs.Sinks

/-!
# What is printed

Where there is room for all that is printed, printing an object and a result succeeds, and prints
one of the two.  Of what a command makes and what a store makes of it, the printed documents are
the same up to the generation.

## Key results

- `Action.run_tell`: printing an object and a result
- `Builder.exists_printed_initial_new`: a new builder, and what is stored for it
- `Builder.exists_printed_updated`: a changed builder, and what is stored after a patch
-/

namespace BuilderControl

open MemoryStore Json

/-! ## Printing where there is room -/

/-- What has been printed after an object and a result: one of them only. -/
def Router.told (r : Router) (document : Json) (text : String) : Sink :=
  match r.format with
  | none => (r.out.writeText (line text r.dryRun)).2
  | some format => (r.out.writeText (format.document document)).2

/-- Where there is room, an object is printed as a document if there is a format. -/
theorem Router.emitObjects_of_unlimited {r : Router} (h : r.out.limit = none) {object : Resource}
    {document : Json} (hprinted : printed r.registry object = .ok document) :
    r.emitObjects [object] = (.ok (), { r with out := match r.format with
      | none => r.out
      | some format => (r.out.writeText (format.document document)).2 }) := by
  have hdocuments : [object].mapM (printed r.registry) = .ok [document] := by
    rw [List.mapM_cons, hprinted]
    rfl
  obtain ⟨dryRun, _ | format, registry, out, err⟩ := r
  · rfl
  · -- Pieces fit where there is room, and together they are the document
    have hpieces : (out.writePieces (format.pieces document)).1 = .ok () :=
      Sink.writePieces_eq_ok_iff.2 (Sink.fits_of_unlimited h _)
    have hdocument : (out.writePieces (format.pieces document)).2 =
        (out.writeText (format.document document)).2 := by
      rw [Sink.writePieces_eq, Sink.joined_pieces]
    simp only [emitObjects, hdocuments, List.flatMap_singleton, ← hdocument]
    exact Prod.ext hpieces rfl

/-- Where there is room, a result is printed as a line if there is no format. -/
theorem Router.emitResult_of_unlimited {r : Router} (h : r.out.limit = none) (text : String) :
    r.emitResult text = (.ok (), { r with out := match r.format with
      | none => (r.out.writeText (line text r.dryRun)).2
      | some _ => r.out }) := by
  have htaken : (r.out.writeText (line text r.dryRun)).1 = true := Sink.fits_of_unlimited h _
  obtain ⟨dryRun, _ | format, registry, out, err⟩ := r
  · simp only [emitResult, writeOut, htaken, written, if_true]
  · rfl

/-- Where there is room, printing an object and a result succeeds, and prints one of the two. -/
theorem Action.run_tell {σ : Type} {w : World σ} (h : w.router.out.limit = none)
    {object : Resource} {document : Json}
    (hprinted : Router.printed w.router.registry object = .ok document) (text : String) :
    (Engine.tell object text).run w =
      (.ok (), { w with router := { w.router with out := w.router.told document text } }) := by
  -- The object comes first, and leaves the room as it is
  have hobjects : (emit (·.emitObjects [object])).run w = (.ok (), { w with
      router := (w.router.emitObjects [object]).2 }) := by
    rw [run_emit, Router.emitObjects_of_unlimited h hprinted]
    rfl
  rw [Engine.tell, run_bind_of_ok hobjects, run_emit, Router.emitObjects_of_unlimited h hprinted]
  obtain ⟨store, ⟨dryRun, _ | format, registry, out, err⟩, logs⟩ := w
  · simp only [Router.emitResult_of_unlimited h]
    rfl
  · rfl

/-! ## Objects as they are printed -/

/-- The standard registry has the identity of every type. -/
theorem Registry.lookup_standard (type : ResourceType) :
    Registry.standard.lookup type = some type.identity := by
  cases type <;> rfl

/-- The identity of a type is never empty. -/
theorem ResourceType.isEmpty_identity (type : ResourceType) : type.identity.isEmpty = false := by
  cases type <;> rfl

/-- Objects of one type with the same identity are printed alike. -/
theorem exists_printed {type : ResourceType} {a b : Json} (ha : a.WellFormed) (hb : b.WellFormed)
    (h : a.SameButGeneration b) (hversion : a.get? "apiVersion" = b.get? "apiVersion")
    (hkind : a.get? "kind" = b.get? "kind") :
    ∃ x y, Router.printed .standard ⟨some type, a⟩ = .ok x ∧
      Router.printed .standard ⟨some type, b⟩ = .ok y ∧ x.SameButGeneration y := by
  have hidentity : Resource.identity ⟨some type, a⟩ = Resource.identity ⟨some type, b⟩ := by
    simp only [Resource.identity, Resource.identity.stated, hversion, hkind]
  simp only [Router.printed, hidentity, Registry.lookup_standard]
  -- With an identity of their own both are printed as they are, else both get that of the type
  split
  · exact ⟨a, b, rfl, rfl, h⟩
  · have htext : ∀ text, (Json.str text).WellFormed := fun _ => trivial
    refine ⟨_, _, rfl, rfl, ?_⟩
    exact (h.set ha hb (htext _) (by simp)).set (ha.set (htext _) _) (hb.set (htext _) _)
      (htext _) (by simp)

namespace Builder

variable (account : Account) (ns : Option String) (name : String) (content : Content)

/-- A new builder states no identity, so it is printed with that of its type. -/
theorem printed_new : Router.printed .standard (Builder.new account ns name content) =
    .ok (identified account ns name content) := by
  cases account <;> rfl

/-- What the store answers for a new builder is printed like the builder itself. -/
theorem exists_printed_initial_new {content : Content} (ho : Order.IsNormal content.order) :
    ∃ document, Router.printed .standard ⟨some account.type,
        initial account.type (Builder.new account ns name content)⟩ = .ok document ∧
      document.SameButGeneration (identified account ns name content) := by
  have hw := wellFormed_identified account ns name ho
  have hm : (identified account ns name content).get? "metadata" =
      some (Json.object (newMetadata ns name)) := by
    rw [identified_eq]
    rfl
  have hsame := sameButGeneration_withGeneration hw rfl hm rfl 1
  -- With the identity of its type, it is printed as it is
  have hself : Router.printed .standard ⟨some account.type, identified account ns name content⟩ =
      .ok (identified account ns name content) := by
    have hidentity : Resource.identity ⟨some account.type, identified account ns name content⟩ =
        account.type.identity := by
      cases account <;> rfl
    simp only [Router.printed, hidentity, ResourceType.isEmpty_identity]
    rfl
  obtain ⟨x, y, hx, hy, hxy⟩ := @exists_printed account.type _ _
    (wellFormed_withGeneration hw 1) hw hsame
    ((get?_withGeneration _ _ _).trans (if_neg (by simp)))
    ((get?_withGeneration _ _ _).trans (if_neg (by simp)))
  cases hy.symm.trans hself
  exact ⟨x, hx, hxy⟩

end Builder

namespace Builder

variable {type : ResourceType} (htype : type = .builder ∨ type = .clusterBuilder) {stored : Json}
  (hw : stored.WellFormed) {observed : Resource}
  (ho : Resource.ofJson (some type) stored = .ok observed)
include htype hw ho

/-- What is read after an update is printed like what was made of what was observed. -/
theorem exists_printed_updated {c : Changes} (hc : c.places.Settable)
    (hne : c.pending observed ≠ []) :
    ∃ x y, Router.printed .standard
        ⟨some type, updated observed.document (c.pending observed)⟩ = .ok x ∧
      Router.printed .standard ⟨some type, (c.apply observed).document⟩ = .ok y ∧
      x.SameButGeneration y := by
  have hwo := Resource.wellFormed_ofJson hw ho
  have hsame := sameButGeneration_updated htype hw ho hc hne
  have hspec : ∀ places : Placements, (∀ p ∈ places, p.2.2.WellFormed) →
      (observed.document.set "spec" ((Json.ofOption (observed.document.get? "spec")).putAll
        places)).WellFormed := fun places hplaces =>
    hwo.set ((WellFormed.ofOption fun _ hg => hwo.get? hg).putAll hplaces) "spec"
  -- Both documents are well-formed, as only values of the changes are set
  have hupdated := wellFormed_withGeneration (hspec (c.pending observed)
    (hc.sublist (c.pending_sublist observed)).wellFormed) (generationOf observed.document + 1)
  rw [updated, if_neg hne] at hsame ⊢
  rw [Changes.document_apply] at hsame ⊢
  -- Neither of them changes the identity
  have hget : ∀ k, k ≠ "metadata" → k ≠ "spec" →
      (withGeneration (observed.document.set "spec" ((Json.ofOption
        (observed.document.get? "spec")).putAll (c.pending observed)))
          (generationOf observed.document + 1)).get? k =
      (observed.document.set "spec" ((Json.ofOption
        (observed.document.get? "spec")).putAll c.places)).get? k := by
    intro k hm hs
    rw [get?_withGeneration, if_neg hm, get?_set, if_neg hs, get?_set, if_neg hs]
  exact exists_printed hupdated (hspec c.places hc.wellFormed) hsame
    (hget "apiVersion" (by simp) (by simp)) (hget "kind" (by simp) (by simp))

end Builder

end BuilderControl
