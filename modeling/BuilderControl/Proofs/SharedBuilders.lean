import BuilderControl.Proofs.PatchClients
import Mathlib.Data.Fintype.Card

/-!
# Builders that several clients patch

The values that a client does not submit were there when it looked, and since then only other
clients have changed them, each to what it was asked for.  So a place that some client is asked to
change holds what some client asks for from the time on at which the first of them is done with it.

## Key results

- `Granted.updated`: what is granted to a client is at most replaced by what another one asks for
- `Scene.Tracks.step`: what every request leaves true of the shared builder
- `Scene.exists_merged_of_done`: what is stored when all clients are done
-/

namespace BuilderControl

open Json MemoryStore

/-! ## What stays true of the shared builder -/

section Shared

open Builder

variable {n : Nat} (clients : Fin n → Client)

/-- A place holds what some client asks for there. -/
def Granted (document : Json) (place : List String) : Prop :=
  ∃ i, ∃ p ∈ (clients i).changes.places, "spec" :: p.1 :: p.2.1 = place ∧
    (document.at? place).map canon = some p.2.2.canon

/-- A place that no client asks to change, apart from the generation, which the store counts. -/
structure Untouched (names : List String) : Prop where
  asked : ∀ i, ∀ p ∈ (clients i).changes.places,
    ¬ ("spec" :: p.1 :: p.2.1) <+: names ∧ ¬ names <+: "spec" :: p.1 :: p.2.1
  generation : ¬ ["metadata", "generation"] <+: names ∧ ¬ names <+: ["metadata", "generation"]

/-- A place in the spec below a key that no client asks to change. -/
theorem untouched_spec {k : String}
    (h : ∀ i, ∀ p ∈ (clients i).changes.places, p.1 ≠ k) (names : List String) :
    Untouched clients ("spec" :: k :: names) where
  asked i p hp := by simp [h i p hp, (h i p hp).symm]
  generation := by simp

/-- No client asks to change the name. -/
theorem untouched_name : Untouched clients ["metadata", "name"] where
  asked := by simp
  generation := by simp

variable {clients}

/-- What is granted to one client is at most replaced by what another one asks for. -/
theorem Granted.updated {document : Json} {place : List String}
    (h : Granted clients document place) {i : Fin n} {places : Placements}
    (hp : places.Sublist (clients i).changes.places) :
    Granted clients (Builder.updated document places) place := by
  obtain ⟨j, p, hmem, rfl, hheld⟩ := h
  have hd := ((clients i).settable_changes.sublist hp).distinct
  -- The client that is served sets a value under the same key, and so at the same place, or leaves
  -- it
  by_cases hk : ∃ q ∈ places, q.1 = p.1
  · obtain ⟨q, hq, hkey⟩ := hk
    have hplace : "spec" :: q.1 :: q.2.1 = "spec" :: p.1 :: p.2.1 := by
      rw [hkey, Changes.names_eq (hp.subset hq) hmem hkey]
    refine ⟨i, q, hp.subset hq, hplace, ?_⟩
    rw [← hplace, at?_updated_of_mem document hd hq]
    rfl
  · refine ⟨j, p, hmem, rfl, ?_⟩
    rwa [at?_updated document (fun q hq => ?_) (by simp)]
    have hne : q.1 ≠ p.1 := fun heq => hk ⟨q, hq, heq⟩
    simp [hne, hne.symm]

/-- What a client asks for is granted once what was left of it has been set. -/
theorem granted_updated {document : Json} {i : Fin n} {places : Placements}
    (hp : places.Sublist (clients i).changes.places)
    (h : ∀ p ∈ (clients i).changes.places, p ∉ places →
      Granted clients document ("spec" :: p.1 :: p.2.1)) :
    ∀ p ∈ (clients i).changes.places,
      Granted clients (Builder.updated document places) ("spec" :: p.1 :: p.2.1) := by
  intro p hmem
  by_cases hset : p ∈ places
  · have hd := ((clients i).settable_changes.sublist hp).distinct
    refine ⟨i, p, hmem, rfl, ?_⟩
    rw [at?_updated_of_mem document hd hset]
    rfl
  · exact (h p hmem hset).updated hp

/-- A place that no client asks to change is not changed by an update of any of them. -/
theorem Untouched.at?_updated {names : List String} (h : Untouched clients names) {i : Fin n}
    {places : Placements} (hp : places.Sublist (clients i).changes.places) (j : Json) :
    (Builder.updated j places).at? names = j.at? names :=
  Builder.at?_updated j (fun p hmem => h.asked i p (hp.subset hmem)) h.generation

/-- How far a client has got, by what it has heard, where some places are granted. -/
inductive Client.Progress (c : Client) (key : StoreKey) (granted : List String → Prop) :
    List Response → Prop
  | idle : Progress c key granted []
  /-- What it asks for and does not see to be there yet is still to be submitted. -/
  | informed {ns : Option String} (hstarts : c.Starts key ns) {document : Json}
    (hw : document.WellFormed) {seen : Resource}
    (ho : Resource.ofJson (some key.type) document = .ok seen) (hname : seen.name = key.name)
    (h : ∀ p ∈ c.changes.places, p ∉ c.changes.pending seen → granted ("spec" :: p.1 :: p.2.1)) :
    Progress c key granted [.object (.done (.ok seen))]
  | finished {ns : Option String} (hstarts : c.Starts key ns) {document : Json}
    (hw : document.WellFormed) {seen : Resource}
    (ho : Resource.ofJson (some key.type) document = .ok seen)
    (h : ∀ p ∈ c.changes.places, granted ("spec" :: p.1 :: p.2.1)) (response : Response)
    (rest : List Response) :
    Progress c key granted (.object (.done (.ok seen)) :: response :: rest)

/-- What a client has got to is not lost when more places are granted. -/
theorem Client.Progress.mono {c : Client} {key : StoreKey} {granted granted' : List String → Prop}
    {heard : List Response} (h : c.Progress key granted heard)
    (hgranted : ∀ place, granted place → granted' place) : c.Progress key granted' heard := by
  cases h with
  | idle => exact .idle
  | informed hstarts hw ho hname h =>
    exact .informed hstarts hw ho hname fun p hp hpending => hgranted _ (h p hp hpending)
  | finished hstarts hw ho h response rest =>
    exact .finished hstarts hw ho (fun p hp => hgranted _ (h p hp)) response rest

/-- Whether a call is a patch. -/
def Call.isPatch (c : Call) : Bool :=
  match c.kind with
  | .patch _ => true
  | _ => false

namespace Scene

/-- The clients that have got a response to their patch. -/
def patched (s : Scene n) : Finset (Fin n) := Finset.univ.filter fun i => 2 ≤ (s.heard i).length

/-- A client has patched the builder once it has heard two responses. -/
theorem mem_patched {s : Scene n} {i : Fin n} : i ∈ s.patched ↔ 2 ≤ (s.heard i).length := by
  simp [patched]

/-- Serving a client makes it one of those that have patched if it had heard one response. -/
theorem patched_serve (s : Scene n) (i : Fin n) (request : Request) :
    (s.serve i request).patched =
      if (s.heard i).length = 1 then insert i s.patched else s.patched := by
  ext j
  -- Only the client that is served hears something
  by_cases hj : j = i
  · subst hj
    rw [mem_patched, heard_serve_self, List.length_append]
    split
    · simp_all
    · rw [mem_patched]
      simp only [List.length_singleton]
      omega
  · rw [mem_patched, heard_serve_of_ne s hj]
    split <;> simp [mem_patched, hj]

variable (clients) (key : StoreKey) (start : MemoryStore) (stored₀ : Json) (observed₀ : Resource)

/-- What is stored and what is read of it, compared with what there was at the start. -/
structure Tracks (s : Scene n) (stored : Json) (observed : Resource) : Prop where
  faults : s.store.faults = []
  object : Entries.get? s.store.objects key = some stored
  wellFormed : stored.WellFormed
  read : Resource.ofJson (some key.type) stored = .ok observed
  named : stored.at? ["metadata", "name"] = some (.str key.name)
  others : ∀ key', key' ≠ key →
    Entries.get? s.store.objects key' = Entries.get? start.objects key'
  kept : ∀ names, Untouched clients names → stored.at? names = stored₀.at? names ∧
    observed.document.at? names = observed₀.document.at? names
  calls : ∃ calls, s.store.calls = start.calls ++ calls ∧
    calls.countP Call.isPatch = s.patched.card
  generation : generationOf stored = generationOf stored₀ + s.patched.card
  progress : ∀ i, (clients i).Progress key (Granted clients observed.document) (s.heard i)

variable {clients key start stored₀ observed₀}

/-- Only the client that is served hears something. -/
theorem progress_serve {s : Scene n} {i : Fin n} {request : Request} {granted : List String → Prop}
    (hi : (clients i).Progress key granted (s.heard i ++ [(s.store.serve request).1]))
    (hothers : ∀ j, j ≠ i → (clients j).Progress key granted (s.heard j)) (j : Fin n) :
    (clients j).Progress key granted ((s.serve i request).heard j) := by
  by_cases hj : j = i
  · subst hj
    rwa [heard_serve_self]
  · rw [heard_serve_of_ne s hj]
    exact hothers j hj

namespace Tracks

variable {s : Scene n} {stored : Json} {observed : Resource}
  (h : Tracks clients key start stored₀ observed₀ s stored observed) {i : Fin n}
include h

/-- Requests that write nothing. -/
theorem of_unwritten {request : Request}
    (hobjects : (s.store.serve request).2.objects = s.store.objects)
    (hfaults : (s.store.serve request).2.faults = [])
    (hcalls : ∃ call, (s.store.serve request).2.calls = s.store.calls ++ [call] ∧
      call.isPatch = false) (hheard : (s.heard i).length ≠ 1)
    (hprogress : (clients i).Progress key (Granted clients observed.document)
      (s.heard i ++ [(s.store.serve request).1])) :
    Tracks clients key start stored₀ observed₀ (s.serve i request) stored observed := by
  have hpatched : (s.serve i request).patched = s.patched := by rw [patched_serve, if_neg hheard]
  obtain ⟨calls, hstart, hcount⟩ := h.calls
  obtain ⟨call, hcall, hread⟩ := hcalls
  -- The builder and all that is known of it is as before, and no patch is counted
  refine {
    faults := hfaults
    object := (congrArg (Entries.get? · key) hobjects).trans h.object
    wellFormed := h.wellFormed
    read := h.read
    named := h.named
    others := fun key' hkey =>
      (congrArg (Entries.get? · key') hobjects).trans (h.others key' hkey)
    kept := h.kept
    calls := ⟨calls ++ [call], ?_, ?_⟩
    generation := by rw [hpatched, h.generation]
    progress := progress_serve hprogress fun j _ => h.progress j }
  · rw [← List.append_assoc, ← hstart]
    exact hcall
  · rw [hpatched, List.countP_append, hcount, List.countP_singleton, hread]
    rfl

/-- A client gets the builder. -/
theorem get {ns : Option String} (hstarts : (clients i).Starts key ns) (hheard : s.heard i = []) :
    Tracks clients key start stored₀ observed₀
      (s.serve i (.get key.type ns key.name)) stored observed := by
  have hserve : s.store.serve (.get key.type ns key.name) = (.object (.done (.ok observed)),
      { s.store with calls := s.store.calls ++ [⟨.get, key.type, ns, key.name⟩] }) := by
    simp only [MemoryStore.serve, get_eq h.faults (hstarts.key ▸ h.object) h.read]
  refine h.of_unwritten (by rw [hserve]) (by rw [hserve]; exact h.faults)
    ⟨⟨.get, key.type, ns, key.name⟩, by rw [hserve], rfl⟩ (by simp [hheard]) ?_
  -- What the client does not see to be pending is granted already
  rw [hheard, hserve]
  exact .informed hstarts h.wellFormed h.read
    (Resource.name_eq_of_ofJson h.wellFormed h.read h.named) fun p hp hpending =>
      ⟨i, p, hp, rfl, Changes.observed_of_not_mem_pending hp hpending⟩

omit h in
/-- A client that has heard one response is not among those that have patched yet. -/
theorem card_insert (hlength : (s.heard i).length = 1) :
    (insert i s.patched).card = s.patched.card + 1 :=
  Finset.card_insert_of_notMem fun hmem => by simp [mem_patched, hlength] at hmem

/-- Each client patches once, so the generation stays below its bound. -/
theorem isGeneration_succ (hlength : (s.heard i).length = 1)
    (hbound : generationOf stored₀ + n < Nat.pow 2 63) :
    IsGeneration (generationOf stored + 1) := by
  have hcard : (insert i s.patched).card ≤ n :=
    (Finset.card_le_univ _).trans_eq (Fintype.card_fin n)
  rw [card_insert hlength] at hcard
  have hlow := (isGeneration_generationOf stored).1
  -- So far, the generation has grown by one for each client that has patched
  have hgeneration := h.generation
  exact ⟨by omega, by omega⟩

/-- A patch that sets values is answered with them set, in what is read and in what is stored. -/
private theorem serve_specPatch {ns : Option String} (hstarts : (clients i).Starts key ns)
    (htype : key.type = .builder ∨ key.type = .clusterBuilder) {places : Placements}
    (hsublist : places.Sublist (clients i).changes.places) (hne : places ≠ [])
    (hg : IsGeneration (generationOf stored + 1)) :
    s.store.serve (.patch key.type ns key.name (specPatch places)) =
      (.object (.done (.ok ⟨some key.type, updated observed.document places⟩)), { s.store with
        calls := s.store.calls ++ [⟨.patch (specPatch places).toJson, key.type, ns, key.name⟩]
        objects := Entries.insert s.store.objects key (updated stored places) }) := by
  simp only [MemoryStore.serve, patch_specPatch_eq htype h.wellFormed h.read
    (clients i).settable_changes (clients i).isNormal_changes hsublist hne hg h.faults
    (hstarts.key ▸ h.object), hstarts.key]

/-- A client submits what was pending when it got the builder. -/
theorem patch {ns : Option String} (hstarts : (clients i).Starts key ns) {document : Json}
    (hw : document.WellFormed) {seen : Resource}
    (ho : Resource.ofJson (some key.type) document = .ok seen) (hname : seen.name = key.name)
    (hheard : s.heard i = [.object (.done (.ok seen))])
    (hgranted : ∀ p ∈ (clients i).changes.places, p ∉ (clients i).changes.pending seen →
      Granted clients observed.document ("spec" :: p.1 :: p.2.1))
    (hne : (clients i).changes.pending seen ≠ [])
    (htype : key.type = .builder ∨ key.type = .clusterBuilder)
    (hbound : generationOf stored₀ + n < Nat.pow 2 63) :
    ∃ stored' observed', Tracks clients key start stored₀ observed₀
      (s.serve i (.patch key.type ns seen.name (specPatch ((clients i).changes.pending seen))))
      stored' observed' := by
  have hc := (clients i).settable_changes
  have hsublist := (clients i).changes.pending_sublist seen
  have hlength : (s.heard i).length = 1 := by rw [hheard]; rfl
  have hg := h.isGeneration_succ hlength hbound
  rw [hname]
  -- The values that were pending are all that matters from here on
  generalize hplaces : (clients i).changes.pending seen = places at hne hsublist hgranted ⊢
  have hpatched : (s.serve i (.patch key.type ns key.name (specPatch places))).patched =
      insert i s.patched := by rw [patched_serve, if_pos hlength]
  have hserve := h.serve_specPatch hstarts htype hsublist hne hg
  have hstore : (s.serve i (.patch key.type ns key.name (specPatch places))).store = _ :=
    congrArg Prod.snd hserve
  obtain ⟨calls, hcalls, hcount⟩ := h.calls
  refine ⟨updated stored places, ⟨some key.type, updated observed.document places⟩, {
    faults := by rw [hstore]; exact h.faults
    object := by rw [hstore, Entries.get?_insert, if_pos rfl]
    wellFormed := wellFormed_updated h.wellFormed fun p hp => hc.wellFormed p (hsublist.subset hp)
    read := ofJson_updated htype h.wellFormed h.read hc (clients i).isNormal_changes hsublist hg
    named := ((untouched_name clients).at?_updated hsublist stored).trans h.named
    others := fun key' hkey => by
      rw [hstore, Entries.get?_insert, if_neg hkey]
      exact h.others key' hkey
    kept := fun names hnames =>
      ⟨(hnames.at?_updated hsublist stored).trans (h.kept names hnames).1,
        (hnames.at?_updated hsublist observed.document).trans (h.kept names hnames).2⟩
    calls := ⟨calls ++ [⟨.patch (specPatch places).toJson, key.type, ns, key.name⟩], ?_, ?_⟩
    generation := ?_
    progress := progress_serve ?_ fun j _ => (h.progress j).mono fun _ hplace =>
      hplace.updated hsublist }⟩
  · rw [hstore, ← List.append_assoc, ← hcalls]
  · rw [hpatched, card_insert hlength, List.countP_append, hcount]
    rfl
  · rw [hpatched, card_insert hlength, updated, if_neg hne, generationOf_withGeneration _ hg,
      h.generation]
    omega
  · -- What was pending is there now, and the rest was granted before
    rw [hheard, hserve]
    exact .finished hstarts hw ho (granted_updated hsublist hgranted) _ []

/-- A client that has patched the builder may watch it. -/
theorem watch {ns : Option String} (hstarts : (clients i).Starts key ns) {document : Json}
    (hw : document.WellFormed) {seen : Resource}
    (ho : Resource.ofJson (some key.type) document = .ok seen) {response : Response}
    {rest : List Response} (hheard : s.heard i = .object (.done (.ok seen)) :: response :: rest)
    (hgranted : ∀ p ∈ (clients i).changes.places,
      Granted clients observed.document ("spec" :: p.1 :: p.2.1))
    (type : ResourceType) (ns' : Option String) (name : String) :
    Tracks clients key start stored₀ observed₀ (s.serve i (.watch type ns' name)) stored
      observed := by
  have hserve : (s.store.serve (.watch type ns' name)).2 =
      { s.store with
        calls := s.store.calls ++ [⟨.watch, type, ns', name⟩]
        faults := (takeFault .watch s.store.faults).2
        events := none } := rfl
  refine h.of_unwritten (by rw [hserve]) (by rw [hserve, h.faults]; rfl)
    ⟨⟨.watch, type, ns', name⟩, by rw [hserve], rfl⟩ (by simp [hheard]) ?_
  rw [hheard]
  exact .finished hstarts hw ho hgranted response (rest ++ [_])

/-- What is true of the shared builder stays true whichever client is served. -/
theorem step (htype : key.type = .builder ∨ key.type = .clusterBuilder)
    (hbound : generationOf stored₀ + n < Nat.pow 2 63) (hpatches : (clients i).Patches key)
    {request : Request} (hnext : (clients i).next? (s.heard i) = some request) :
    ∃ stored' observed',
      Tracks clients key start stored₀ observed₀ (s.serve i request) stored' observed' := by
  have hprogress := h.progress i
  -- What a client does next is up to what it has heard
  generalize hheard : s.heard i = heard at hnext hprogress
  cases hprogress with
  | idle =>
    rcases hpatches.starts_or with ⟨ns, hstarts⟩ | ⟨-, hnone⟩
    · cases (Client.next?_idle hstarts).symm.trans hnext
      exact ⟨stored, observed, h.get hstarts hheard⟩
    · cases (hnone []).symm.trans hnext
  | informed hstarts hw ho hname hgranted =>
    rw [Client.next?_informed hstarts htype hw ho] at hnext
    split at hnext
    · cases hnext
    · rename_i hne
      cases hnext
      exact h.patch hstarts hw ho hname hheard hgranted hne htype hbound
  | finished hstarts hw ho hgranted response rest =>
    rcases Client.next?_finished hstarts htype hw ho response rest with
      hnone | ⟨type, ns, name, hwatch⟩
    · cases hnone.symm.trans hnext
    · cases hwatch.symm.trans hnext
      exact ⟨stored, observed, h.watch hstarts hw ho hheard hgranted type ns name⟩

end Tracks

/-- What is true of the shared builder stays true however the clients are served. -/
theorem Reaches.tracks (htype : key.type = .builder ∨ key.type = .clusterBuilder)
    (hbound : generationOf stored₀ + n < Nat.pow 2 63) (hpatches : ∀ i, (clients i).Patches key)
    {s s' : Scene n} (hreaches : Reaches clients s s') {stored : Json} {observed : Resource}
    (h : Tracks clients key start stored₀ observed₀ s stored observed) :
    ∃ stored' observed', Tracks clients key start stored₀ observed₀ s' stored' observed' := by
  -- On the steps that were made, each of which serves one client
  induction hreaches with
  | refl => exact ⟨stored, observed, h⟩
  | tail _ hstep ih =>
    obtain ⟨stored', observed', h'⟩ := ih
    cases hstep with
    | serve i hnext => exact h'.step htype hbound (hpatches i) hnext

variable (clients key start stored₀ observed₀) in
/-- What it comes to when clients have patched what was stored and observed at the start. -/
structure Merged (store : MemoryStore) (stored : Json) (observed : Resource) : Prop where
  object : Entries.get? store.objects key = some stored
  read : Resource.ofJson (some key.type) stored = .ok observed
  /-- A client asks for the values of its request that are not empty, or it fails before it makes a
  request, and then it asks for none. -/
  asked : ∀ i, (∀ p, p ∈ (clients i).changes.places ↔ (clients i).Asks p) ∨
    ((clients i).changes.places = [] ∧ ∀ heard, (clients i).next? heard = none)
  /-- Where a client asks for a value, there is one that some client asks for. -/
  granted : ∀ i, ∀ p ∈ (clients i).changes.places,
    Granted clients observed.document ("spec" :: p.1 :: p.2.1)
  /-- Where none asks for a value, there is what was observed at the start. -/
  original : ∀ k, (∀ i, ∀ p ∈ (clients i).changes.places, p.1 ≠ k) → ∀ names,
    observed.document.at? ("spec" :: k :: names) = observed₀.document.at? ("spec" :: k :: names)
  /-- All else is stored as it was. -/
  kept : ∀ names, Untouched clients names → stored.at? names = stored₀.at? names
  others : ∀ key', key' ≠ key →
    Entries.get? store.objects key' = Entries.get? start.objects key'
  /-- Every patch is counted. -/
  generation : ∃ calls, store.calls = start.calls ++ calls ∧
    generationOf stored = generationOf stored₀ + calls.countP Call.isPatch

/-- A client that is done has been granted what it asks for. -/
theorem Tracks.granted_of_done {s : Scene n} {stored : Json} {observed : Resource}
    (h : Tracks clients key start stored₀ observed₀ s stored observed) {i : Fin n}
    (htype : key.type = .builder ∨ key.type = .clusterBuilder) (hpatches : (clients i).Patches key)
    (hdone : (clients i).next? (s.heard i) = none) :
    ∀ p ∈ (clients i).changes.places,
      Granted clients observed.document ("spec" :: p.1 :: p.2.1) := by
  have hprogress := h.progress i
  generalize s.heard i = heard at hdone hprogress
  -- A client is done without a request, with nothing to submit, or after its patch
  cases hprogress with
  | idle =>
    rcases hpatches.starts_or with ⟨ns, hstarts⟩ | ⟨hchanges, -⟩
    · cases hdone.symm.trans (Client.next?_idle hstarts)
    · rw [hchanges]
      exact fun p hp => nomatch hp
  | informed hstarts hw ho hname hgranted =>
    rw [Client.next?_informed hstarts htype hw ho] at hdone
    split at hdone
    · rename_i hnone
      exact fun p hp => hgranted p hp (by rw [hnone]; exact List.not_mem_nil)
    · cases hdone
  | finished hstarts hw ho hgranted response rest => exact hgranted

/-- However the requests of clients that patch a builder are served, when all of them are done, each
value that any of them asks for has been replaced by one that they ask for, and nothing else is
different but the generation, which counts the patches. -/
theorem exists_merged_of_done (htype : key.type = .builder ∨ key.type = .clusterBuilder)
    (hpatches : ∀ i, (clients i).Patches key) (hfaults : start.faults = [])
    (hobject : Entries.get? start.objects key = some stored₀) (hw : stored₀.WellFormed)
    (hread : Resource.ofJson (some key.type) stored₀ = .ok observed₀)
    (hname : stored₀.at? ["metadata", "name"] = some (.str key.name))
    (hbound : generationOf stored₀ + n < Nat.pow 2 63) {final : Scene n}
    (hreaches : Reaches clients { store := start } final) (hdone : final.IsDone clients) :
    ∃ stored observed,
      Merged clients key start stored₀ observed₀ final.store stored observed := by
  -- At the start no client has heard anything
  have hnone : patched (n := n) { store := start } = ∅ := by
    ext i
    simp [mem_patched]
  have hstart : Tracks clients key start stored₀ observed₀ { store := start } stored₀ observed₀ := {
    faults := hfaults
    object := hobject
    wellFormed := hw
    read := hread
    named := hname
    others := fun _ _ => rfl
    kept := fun _ _ => ⟨rfl, rfl⟩
    calls := ⟨[], (List.append_nil _).symm, by rw [hnone]; rfl⟩
    generation := by simp [hnone]
    progress := fun _ => .idle }
  obtain ⟨stored, observed, h⟩ := hreaches.tracks htype hbound hpatches hstart
  obtain ⟨calls, hcalls, hcount⟩ := h.calls
  exact ⟨stored, observed, {
    object := h.object
    read := h.read
    asked := fun i => (hpatches i).asked
    granted := fun i => h.granted_of_done htype (hpatches i) (hdone i)
    original := fun k hk names => (h.kept _ (untouched_spec clients hk names)).2
    kept := fun names hnames => (h.kept names hnames).1
    others := h.others
    generation := ⟨calls, hcalls, by rw [hcount, h.generation]⟩ }⟩

/-- The second client gets the builder before the first one patches it. -/
theorem exists_merged_of_done_overlapping :
    let stored : Json := .obj [("metadata", .obj [("generation", .num (.int 2)),
        ("name", .str "base")]),
      ("spec", .obj [("stack", .obj [("name", .str "tiny"), ("zone", .str "a")]),
        ("tag", .str "r/base")])]
    let observed : Resource := ⟨some .builder, .obj [("metadata", .obj
        [("generation", .num (.int 2)), ("name", .str "base")]),
      ("spec", .obj [("stack", .obj [("name", .str "tiny")]), ("store", .obj []),
        ("tag", .str "r/base")])]⟩
    let key : StoreKey := .ofLocation .builder none "base"
    let start : MemoryStore := { objects := [(key, stored)] }
    let client (request : Command.ChangeRequest) : Client :=
      { invocation := ⟨.patch .builder none "base" request, {}, .ofSeconds 600⟩, files := default }
    let clients : Fin 2 → Client := fun i =>
      if i = 0 then client { stack := some "full" }
      else client { stack := some "huge", store := some "main" }
    let served : List (Fin 2 × Request) :=
      [(0, .get .builder none "base"), (1, .get .builder none "base"),
        (0, .patch .builder none "base" (specPatch [("stack", ["name"], .str "full")])),
        (1, .patch .builder none "base"
          (specPatch [("stack", ["name"], .str "huge"), ("store", ["name"], .str "main")]))]
    let final : Scene 2 := served.foldl (fun s r => s.serve r.1 r.2) { store := start }
    Reaches clients { store := start } final ∧ final.IsDone clients ∧
      ∃ stored' observed',
        Merged clients key start stored observed final.store stored' observed' := by
  intro stored observed key start client clients served final
  have hreaches : Reaches clients { store := start } final :=
    (((Relation.ReflTransGen.refl.tail (.serve _ 0 (by decide +kernel))).tail
      (.serve _ 1 (by decide +kernel))).tail (.serve _ 0 (by decide +kernel))).tail
        (.serve _ 1 (by decide +kernel))
  have hdone : final.IsDone clients := by
    show ∀ i : Fin 2, (clients i).next? (final.heard i) = none
    decide +kernel
  have hpatches : ∀ i, (clients i).Patches key := by
    intro i
    simp only [clients]
    split <;> exact ⟨⟨none, _, rfl, rfl⟩, rfl⟩
  exact ⟨hreaches, hdone, exists_merged_of_done (Or.inl rfl) hpatches rfl rfl
    (show stored.WellFormed by decide) rfl rfl (by decide) hreaches hdone⟩

end Scene

end Shared

end BuilderControl
