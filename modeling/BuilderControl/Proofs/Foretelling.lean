import BuilderControl.Proofs.Printing

/-!
# Runs and their dry runs

A dry run prints what a command has made of an object, the run itself what the store has answered.
Step by step, where the run succeeds, the dry run does too, and prints the same result with a remark
or a document that is the same up to the generation.

## Key results

- `Action.foretells_bind`: after steps that print nothing and end alike
- `Engine.foretells_create`, `Engine.foretells_patch`: what is printed without a request
- `Command.foretells_run`: dry runs succeed where commands do, and foretell what these print
-/

namespace BuilderControl

open MemoryStore Json

/-! ## Runs and their dry runs -/

/-- What a dry run prints on top of `out` next to what the real run prints: the same line with a
remark, or a document that is the same up to the generation, if one is printed. -/
def Foretold (format : Option Format) (prints : Bool) (out real dry : Sink) : Prop :=
  match format with
  | none => ∃ text, real = (out.writeText (text ++ "\n")).2 ∧
      dry = (out.writeText (text ++ " (dry run)" ++ "\n")).2
  | some format =>
    if prints then ∃ document document' : Json, document.SameButGeneration document' ∧
      real = (out.writeText (format.document document)).2 ∧
      dry = (out.writeText (format.document document')).2
    else real = out ∧ dry = out

/-- A router with room for all that is printed, and that of the dry run. -/
structure Router.Paired (r d : Router) : Prop where
  dry : d = { r with dryRun := true }
  real : r.dryRun = false
  registry : r.registry = .standard
  room : r.out.limit = none

/-- If the first run ends well, so does the second, and it tells what the first one prints. -/
def Foretells (prints : Bool) (x y : Action MemoryStore Unit) (w v : World MemoryStore) : Prop :=
  ∀ w', x.run w = (.ok (), w') → ∃ v', y.run v = (.ok (), v') ∧
    Foretold w.router.format prints w.router.out w'.router.out v'.router.out

namespace Action

variable {prints : Bool} {α : Type} {w v : World MemoryStore}

/-- After steps that print nothing and end alike. -/
theorem foretells_bind {x y : Action MemoryStore α} {f g : α → Action MemoryStore Unit}
    (h : ∀ a w', x.run w = (.ok a, w') → w'.router = w.router ∧
      ∃ v', y.run v = (.ok a, v') ∧ Foretells prints (f a) (g a) w' v') :
    Foretells prints (x >>= f) (y >>= g) w v := by
  intro u hu
  obtain ⟨a, w', hx, hf⟩ := run_bind_ok.1 hu
  obtain ⟨hrouter, v', hy, hnext⟩ := h a w' hx
  obtain ⟨u', hu', hforetold⟩ := hnext u hf
  rw [hrouter] at hforetold
  exact ⟨u', by rw [run_bind_of_ok hy, hu'], hforetold⟩

/-- Printing objects with the same document up to the generation, and the same result. -/
theorem foretells_tell (hr : w.router.Paired v.router) {object object' : Resource}
    {document document' : Json} (h : Router.printed .standard object = .ok document)
    (h' : Router.printed .standard object' = .ok document')
    (hsame : document.SameButGeneration document') (text : String) :
    Foretells true (Engine.tell object text) (Engine.tell object' text) w v := by
  obtain ⟨hdry, hreal, hregistry, hroom⟩ := hr
  rw [← hregistry] at h h'
  have hroom' : v.router.out.limit = none := by rw [hdry]; exact hroom
  have hv : Router.printed v.router.registry object' = .ok document' := by rw [hdry]; exact h'
  rw [Foretells, run_tell hroom h]
  rintro _ ⟨⟩
  refine ⟨_, run_tell hroom' hv text, ?_⟩
  -- The result has a remark in the dry run, a document has none
  simp only [Router.told, hdry, hreal]
  cases w.router.format with
  | none =>
    refine ⟨text, ?_, rfl⟩
    simp [Router.line]
  | some format => exact ⟨document, document', hsame, rfl, rfl⟩

/-- Printing an object that stands for what a request is answered with. -/
theorem foretells_request (hr : w.router.Paired v.router)
    {call : MemoryStore → Answer MemoryStore Resource} {object' : Resource} {document' : Json}
    (h' : Router.printed .standard object' = .ok document')
    (h : ∀ object, (call w.store).reply = .done (.ok object) →
      ∃ document, Router.printed .standard object = .ok document ∧
        document.SameButGeneration document') (text : String) :
    Foretells true (request call >>= fun object => Engine.tell object text)
      (pure object' >>= fun object => Engine.tell object text) w v := by
  intro u hu
  obtain ⟨object, w', hrequest, htell⟩ := run_bind_ok.1 hu
  obtain ⟨hreply, rfl⟩ := run_request_ok.1 hrequest
  obtain ⟨document, hprinted, hsame⟩ := h object hreply
  exact foretells_tell (w := { w with
    store := (call w.store).store, logs := w.logs ++ (call w.store).logs })
    hr hprinted h' hsame text u htell

end Action

/-! ## Foretelling creations and patches -/

/-- The settings of the dry run. -/
def Settings.dry (s : Settings) : Settings := { s with mode := { s.mode with dryRun := true } }

namespace Engine

open BuilderControl.Action Builder

variable {s : Settings} (hdry : s.mode.dryRun = false) (hwait : s.mode.shouldWait = false)
  {w v : World MemoryStore} (hr : w.router.Paired v.router)

include hr

include hdry hwait in
/-- The dry run of a creation foretells what the creation prints. -/
theorem foretells_create (account : Account) (ns : Option String) (name : String)
    {content : Content} (ho : Order.IsNormal content.order) :
    Foretells true (create s account.type ns (Builder.new account ns name content))
      (create s.dry account.type ns (Builder.new account ns name content)) w v := by
  have hdryWait : s.dry.mode.shouldWait = false := Mode.shouldWait_of_dryRun rfl
  let text := "\"" ++ (Builder.new account ns name content).name ++ "\" created"
  -- Without waiting, what is reported is told at once
  have hcreate : create s account.type ns (Builder.new account ns name content) = (do
      let created ← request (Store.create account.type ns (Builder.new account ns name content))
      tell created text : Action MemoryStore Unit) := by
    simp only [create, hdry, ← report_of_not_shouldWait hwait account.type ns]
    rfl
  have hcreateDry : create s.dry account.type ns (Builder.new account ns name content) = (do
      let created ← pure (Builder.new account ns name content)
      tell created text : Action MemoryStore Unit) := by
    simp only [create, ← report_of_not_shouldWait hdryWait account.type ns]
    rfl
  rw [hcreate, hcreateDry]
  refine foretells_request hr (printed_new account ns name content) (fun created hreply => ?_) text
  -- What the store answers is what it keeps
  cases (of_create_ok hreply).symm.trans (ofJson_initial_new account ns name ho)
  exact exists_printed_initial_new account ns name ho

section Documents

variable {type : ResourceType} (htype : type = .builder ∨ type = .clusterBuilder) {stored : Json}
  (hw : stored.WellFormed) {observed : Resource}
  (ho : Resource.ofJson (some type) stored = .ok observed)
include hw ho

/-- Where nothing has to change, both runs print what was observed. -/
private theorem foretells_keep (ns : Option String) {desired : Resource}
    (hempty : (s.differ.diff observed.document desired.document).isEmpty = true) :
    Foretells true (patch s type ns observed desired) (patch s.dry type ns observed desired) w v := by
  have hwo := Resource.wellFormed_ofJson hw ho
  obtain ⟨x, y, hx, hy, hxy⟩ := exists_printed hwo hwo
    (sameButGeneration_of_canon_eq hwo hwo rfl) rfl rfl
  have hobserved : (⟨some type, observed.document⟩ : Resource) = observed := by
    rw [← (Resource.ofJson_eq_ok_iff.1 ho).1]
  rw [hobserved] at hx hy
  obtain ⟨w', -, hw', hrun⟩ := run_patch_of_isEmpty type ns observed desired hempty w
  obtain ⟨v', -, hv', hrunDry⟩ :=
    run_patch_of_isEmpty (s := s.dry) type ns observed desired hempty v
  rw [Foretells, hrun, hrunDry, ← hw']
  rw [← hw', ← hv'] at hr
  exact foretells_tell hr hx hy hxy _

include hdry hwait htype

/-- Where values are pending, the run prints what the patch is answered with, and the dry run what
was made of the builder. -/
private theorem foretells_pending (hdiffer : s.differ = .standard) {c : Changes}
    (hc : c.places.Settable) (hn : c.IsNormal) (hpending : c.pending observed ≠ [])
    (ns : Option String)
    (hget : Entries.get? w.store.objects (.ofLocation type ns observed.name) = some stored) :
    Foretells true (patch s type ns observed (c.apply observed))
      (patch s.dry type ns observed (c.apply observed)) w v := by
  have hdiff : s.differ.diff observed.document (c.apply observed).document =
      specPatch (c.pending observed) := by
    rw [hdiffer, diff_apply htype hw ho hc, if_neg hpending]
  have hempty :
      (s.differ.diff observed.document (c.apply observed).document).isEmpty = false := by
    rw [hdiff]
    rfl
  obtain ⟨w', hstore, hw', hrun⟩ := run_patch type ns observed (c.apply observed) hempty w
  obtain ⟨v', -, hv', hrunDry⟩ :=
    run_patch (s := s.dry) type ns observed (c.apply observed) hempty v
  rw [Foretells, hrun, hrunDry, ← hw', hdry]
  rw [← hw', ← hv'] at hr
  simp only [report_of_not_shouldWait hwait,
    report_of_not_shouldWait (Mode.shouldWait_of_dryRun (m := s.dry.mode) rfl)]
  have hsublist := c.pending_sublist observed
  obtain ⟨x, y, hx, hy, hxy⟩ := exists_printed_updated htype hw ho hc hpending
  have happly : (⟨some type, (c.apply observed).document⟩ : Resource) = c.apply observed := by
    rw [← (Resource.ofJson_eq_ok_iff.1 ho).1]
    rfl
  rw [happly] at hy
  refine foretells_request hr hy (fun patched hreply => ⟨x, ?_, hxy⟩) _
  -- What the store answers is the stored document with the pending values set
  rw [hstore, hdiff] at hreply
  have hread := of_patch_ok hget hreply
  rw [patched_specPatch htype hw ho (hc.sublist hsublist) hpending] at hread
  have hg := isGeneration_of_ofJson_updated htype hw ho hc hsublist hpending hread
  cases hread.symm.trans (ofJson_updated htype hw ho hc hn hsublist hg)
  exact hx

/-- The dry run of a patch foretells what the patch prints. -/
theorem foretells_patch (hdiffer : s.differ = .standard) {c : Changes} (hc : c.places.Settable)
    (hn : c.IsNormal) (ns : Option String)
    (hget : Entries.get? w.store.objects (.ofLocation type ns observed.name) = some stored) :
    Foretells true (patch s type ns observed (c.apply observed))
      (patch s.dry type ns observed (c.apply observed)) w v := by
  by_cases hnone : c.pending observed = []
  · refine foretells_keep hr hw ho ns ?_
    rw [hdiffer, diff_apply htype hw ho hc, if_pos hnone]
    rfl
  · exact foretells_pending hdry hwait hr htype hw ho hdiffer hc hn hnone ns hget

end Documents

end Engine

/-! ## Foretelling commands -/

/-- Every object is kept under the name that it states. -/
def MemoryStore.IsNamed (s : MemoryStore) : Prop :=
  ∀ key document, Entries.get? s.objects key = some document →
    document.WellFormed ∧ document.at? ["metadata", "name"] = some (.str key.name)

namespace Builder

/-- The content of a new builder has the order that was asked for. -/
theorem Changes.order_of_content {c : Changes} {content : Content} (h : c.content = .ok content) :
    c.order = some content.order := by
  obtain ⟨_ | tag, stack, store, _ | order⟩ := c <;> first | cases h; rfl | cases h

end Builder

namespace Action

variable {prints : Bool} {α : Type} {w v : World MemoryStore}

/-- After a step without the store that ends well. -/
theorem foretells_ofExcept (result : Except Error α) {f g : α → Action MemoryStore Unit}
    (h : ∀ a, result = .ok a → Foretells prints (f a) (g a) w v) :
    Foretells prints (ofExcept result >>= f) (ofExcept result >>= g) w v := by
  refine foretells_bind fun a w' hrun => ?_
  rw [run_ofExcept] at hrun ⊢
  obtain ⟨hresult, rfl⟩ := Prod.mk.inj hrun
  rw [Except.mapError_ok_iff] at hresult
  exact ⟨rfl, v, by rw [hresult]; rfl, h a hresult⟩

/-- The same request to the same store. -/
theorem foretells_ask (hstore : v.store = w.store) {call : MemoryStore → Answer MemoryStore α}
    {f g : α → Action MemoryStore Unit}
    (h : ∀ a w' v', (call w.store).reply = .done (.ok a) → w'.store = (call w.store).store →
      w'.router = w.router → v'.router = v.router → Foretells prints (f a) (g a) w' v') :
    Foretells prints (request call >>= f) (request call >>= g) w v := by
  refine foretells_bind fun a w' hrun => ?_
  obtain ⟨hreply, rfl⟩ := run_request_ok.1 hrun
  have hdry : (request call).run v = (.ok a, { v with
      store := (call w.store).store, logs := v.logs ++ (call w.store).logs }) :=
    run_request_ok.2 ⟨by rw [hstore, hreply], by rw [hstore]⟩
  exact ⟨rfl, _, hdry, h a _ _ hreply rfl rfl rfl⟩

/-- After a line in the log. -/
theorem foretells_log (level : Level) (text : String) {f g : Unit → Action MemoryStore Unit}
    (h : ∀ w' v', w'.router = w.router → v'.router = v.router →
      Foretells prints (f ()) (g ()) w' v') :
    Foretells prints (log level text >>= f) (log level text >>= g) w v := by
  refine foretells_bind fun _ w' hrun => ?_
  cases hrun
  exact ⟨rfl, _, rfl, h _ _ rfl rfl⟩

/-- The same look-up in the same store: what is found was got. -/
theorem foretells_lookUp (hstore : v.store = w.store) {type : ResourceType} {ns : Option String}
    {name : String} {f g : Option Resource → Action MemoryStore Unit}
    (hsome : ∀ observed w' v', (Store.get type ns name w.store).reply = .done (.ok observed) →
      w'.store = (Store.get type ns name w.store).store → w'.router = w.router →
      v'.router = v.router → Foretells prints (f (some observed)) (g (some observed)) w' v')
    (hnone : ∀ w' v', w'.router = w.router → v'.router = v.router →
      Foretells prints (f none) (g none) w' v') :
    Foretells prints (Engine.lookUp type ns name >>= f) (Engine.lookUp type ns name >>= g) w v := by
  refine foretells_bind fun found w' hfound => ?_
  rw [Engine.run_lookUp] at hfound ⊢
  obtain ⟨hresult, rfl⟩ := Prod.mk.inj hfound
  refine ⟨rfl, _, by rw [hstore, hresult], ?_⟩
  -- Both find the same object, or both find none
  cases found with
  | some observed => exact hsome observed _ _ (Reply.eq_of_found_some hresult) rfl rfl rfl
  | none => exact hnone _ _ rfl rfl

/-- Telling a result only. -/
theorem foretells_result (hr : w.router.Paired v.router) (text : String) :
    Foretells false (emit (·.emitResult text)) (emit (·.emitResult text)) w v := by
  obtain ⟨hdry, hreal, -, hroom⟩ := hr
  have hroom' : v.router.out.limit = none := by rw [hdry]; exact hroom
  rw [Foretells, run_emit, run_emit, Router.emitResult_of_unlimited hroom,
    Router.emitResult_of_unlimited hroom']
  rintro _ ⟨⟩
  refine ⟨_, rfl, ?_⟩
  simp only [hdry, hreal]
  cases w.router.format with
  | none => exact ⟨text, by simp [Router.line], rfl⟩
  | some format => exact ⟨rfl, rfl⟩

end Action

namespace Engine

open BuilderControl.Action Builder

variable {s : Settings} (hdry : s.mode.dryRun = false) (hwait : s.mode.shouldWait = false)
  {w v : World MemoryStore} (hr : w.router.Paired v.router)
include hdry hr

/-- The dry run of a deletion foretells what the deletion tells. -/
theorem foretells_delete (type : ResourceType) (ns : Option String) (name : String) :
    Foretells false (delete s type ns name) (delete s.dry type ns name) w v := by
  have hdelete : delete s type ns name = (do
      request (Store.delete type ns name)
      emit (·.emitResult ("\"" ++ name ++ "\" deleted")) : Action MemoryStore Unit) := by
    simp only [delete, hdry]
    rfl
  rw [hdelete]
  -- The dry run does not delete, but it has the same to tell
  intro u hu
  obtain ⟨_, w', hrequest, hemit⟩ := run_bind_ok.1 hu
  obtain ⟨-, rfl⟩ := run_request_ok.1 hrequest
  exact foretells_result (w := { w with
    store := (Store.delete type ns name w.store).store
    logs := w.logs ++ (Store.delete type ns name w.store).logs }) hr _ u hemit

include hwait

/-- The dry run of a save foretells what the save prints. -/
theorem foretells_save (hdiffer : s.differ = .standard) (hstore : v.store = w.store)
    (hnamed : w.store.IsNamed) (account : Account) (ns : Option String) (name : String)
    {c : Changes} (hc : c.places.Settable) (hn : c.IsNormal) :
    Foretells true
      (save s account.type ns name c.apply
        ((c.content.mapError Error.invalid).map (Builder.new account ns name)))
      (save s.dry account.type ns name c.apply
        ((c.content.mapError Error.invalid).map (Builder.new account ns name))) w v := by
  have htype : account.type = .builder ∨ account.type = .clusterBuilder := by
    cases account
    · exact Or.inl rfl
    · exact Or.inr rfl
  refine foretells_lookUp hstore (fun observed w' v' hreply hasked hw' hv' => ?_)
    fun w' v' hw' hv' => ?_
  · -- What is found is patched
    obtain ⟨stored, hget, ho, hobjects⟩ := of_get_ok hreply
    rw [← hw', ← hv'] at hr
    obtain ⟨hw, hname⟩ := hnamed _ _ hget
    refine foretells_patch hdry hwait hr htype hw ho hdiffer hc hn ns ?_
    rw [Resource.name_eq_of_ofJson hw ho hname, hasked, hobjects]
    exact hget
  · -- What is not found is created, after a line in the log
    refine foretells_log _ _ fun w'' v'' hw'' hv'' => foretells_ofExcept _ fun object hobject => ?_
    obtain ⟨content, hcontent, rfl⟩ := Except.map_ok_iff.1 hobject
    rw [Except.mapError_ok_iff] at hcontent
    rw [← hw', ← hv', ← hw'', ← hv''] at hr
    exact foretells_create hdry hwait hr account ns name (hn _ (Changes.order_of_content hcontent))

end Engine

namespace Command

open BuilderControl.Action Engine Builder

/-- Commands that write; only builders are created and changed. -/
inductive Writes : Command → Prop
  | create (account : Account) (ns : Option String) (name tag stack store order : String) :
    Writes (.create account ns name tag stack store order)
  | patch {type : ResourceType} (h : type = .builder ∨ type = .clusterBuilder)
    (ns : Option String) (name : String) (request : ChangeRequest) :
    Writes (.patch type ns name request)
  | save (account : Account) (ns : Option String) (name : String) (request : ChangeRequest) :
    Writes (.save account ns name request)
  | delete (type : ResourceType) (ns : Option String) (name : String) :
    Writes (.delete type ns name)

/-- Commands that print an object when they succeed. -/
def printsObject : Command → Bool
  | .delete .. => false
  | _ => true

/-- The commands of builders all write. -/
theorem writes_ofBuilderVerb {type : ResourceType}
    (htype : type = .builder ∨ type = .clusterBuilder) {verb : String}
    {found : CommandLine.Matches} {c : Command} (h : ofBuilderVerb type verb found = some c) :
    c.Writes := by
  simp only [ofBuilderVerb] at h
  split at h <;> cases h
  · exact .create ..
  · exact .patch htype ..
  · exact .save ..
  · exact .delete ..

/-- All commands that arguments ask for either write or get. -/
theorem writes_ofParsed {parsed : CommandLine.Parsed} {c : Command} (h : ofParsed parsed = some c) :
    c.Writes ∨ ∃ type ns name, c = .get type ns name := by
  simp only [ofParsed] at h
  split at h
  · exact Or.inl (writes_ofBuilderVerb (Or.inr rfl) h)
  · exact Or.inl (writes_ofBuilderVerb (Or.inl rfl) h)
  · split at h <;> cases h
    exact Or.inr ⟨_, _, _, rfl⟩
  · cases h

/-- The dry run of a command tells what the command would print. -/
theorem foretells_run {s : Settings} (hdry : s.mode.dryRun = false)
    (hwait : s.mode.shouldWait = false) (hdiffer : s.differ = .standard) {c : Command}
    (hc : c.Writes) (files : Files) {w v : World MemoryStore} (hr : w.router.Paired v.router)
    (hstore : v.store = w.store) (hnamed : w.store.IsNamed) :
    Foretells c.printsObject (c.run files s) (c.run files s.dry) w v := by
  cases hc with
  | create account ns name tag stack store order =>
    have hcreate : Foretells true
        (Action.ofExcept (Order.ofFile files order) >>= fun order => Engine.create s account.type ns
          (Builder.new account ns name ⟨tag, stack, store, order⟩))
        (Action.ofExcept (Order.ofFile files order) >>= fun order => Engine.create s.dry
          account.type ns (Builder.new account ns name ⟨tag, stack, store, order⟩)) w v :=
      foretells_ofExcept _ fun order horder =>
        foretells_create hdry hwait hr account ns name (Order.isNormal_ofFile horder)
    simp only [Command.run]
    split
    · -- Without a tag, nothing succeeds
      exact foretells_ofExcept (.error (.invalid .emptyTag)) fun _ h => by cases h
    · exact hcreate
  | patch htype ns name request =>
    refine foretells_ofExcept _ fun changes hread => foretells_ask hstore
      fun observed w' v' hreply hasked hw' hv' => ?_
    -- The object that was got has the name that it was got by
    obtain ⟨stored, hget, ho, hobjects⟩ := of_get_ok hreply
    rw [← hw', ← hv'] at hr
    obtain ⟨hw, hname⟩ := hnamed _ _ hget
    refine foretells_patch hdry hwait hr htype hw ho hdiffer (settable_of_read hread)
      (Changes.isNormal_of_read hread) ns ?_
    rw [Resource.name_eq_of_ofJson hw ho hname, hasked, hobjects]
    exact hget
  | save account ns name request =>
    exact foretells_ofExcept _ fun changes hread => foretells_save hdry hwait hr hdiffer hstore
      hnamed account ns name (settable_of_read hread) (Changes.isNormal_of_read hread)
  | delete type ns name => exact foretells_delete hdry hr type ns name

end Command

end BuilderControl
