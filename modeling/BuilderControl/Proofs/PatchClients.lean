import BuilderControl.Proofs.BuilderDocuments
import BuilderControl.Proofs.Clients

/-!
# Clients that patch a builder

Getting a builder and patching it are two requests, so a client may patch what it has not seen.  It
submits the values that it is asked to change and that were not there when it looked.

## Key results

- `Client.next?_idle`: first, a client gets the builder
- `Client.next?_informed`: then it submits what was not there
- `Client.next?_finished`: and after that it writes no more
-/

namespace BuilderControl

open Json MemoryStore

namespace Client

open BuilderControl.Action Engine Builder

/-- What a client asks to be changed; nothing if it fails before it makes a request. -/
def changes (c : Client) : Changes :=
  match c.invocation.command, Router.ofMode c.invocation.mode .standard c.out c.err with
  | .patch _ _ _ request, .ok _ => (request.read c.files).toOption.getD {}
  | _, _ => {}

/-- The client is to patch the object that is kept under a key. -/
structure Patches (c : Client) (key : StoreKey) : Prop where
  command : ∃ ns request, c.invocation.command = .patch key.type ns key.name request ∧
    StoreKey.ofLocation key.type ns key.name = key
  dry : c.invocation.mode.dryRun = false

/-- The client gets as far as to its first request. -/
structure Starts (c : Client) (key : StoreKey) (ns : Option String) : Prop where
  command : ∃ request, c.invocation.command = .patch key.type ns key.name request ∧
    request.read c.files = .ok c.changes
  key : StoreKey.ofLocation key.type ns key.name = key
  router : ∃ router, Router.ofMode c.invocation.mode .standard c.out c.err = .ok router
  dry : c.invocation.mode.dryRun = false

/-- A client that does not start asks for nothing. -/
theorem Patches.starts_or {c : Client} {key : StoreKey} (h : c.Patches key) :
    (∃ ns, c.Starts key ns) ∨ c.changes = {} ∧ ∀ heard, c.next? heard = none := by
  obtain ⟨⟨ns, request, hcommand, hkey⟩, hdry⟩ := h
  -- A client can fail by its format, or by a file that can not be read
  cases hrouter : Router.ofMode c.invocation.mode .standard c.out c.err with
  | error e =>
    refine Or.inr ⟨by simp only [changes, hrouter, hcommand], fun heard => ?_⟩
    simp only [next?, hearing, Invocation.perform, Action.perform, hrouter]
    rfl
  | ok router =>
    cases hread : request.read c.files with
    | ok read =>
      have hchanges : c.changes = read := by
        simp only [changes, hrouter, hcommand, hread]
        rfl
      exact Or.inl ⟨ns, ⟨request, hcommand, by rw [hread, hchanges]⟩, hkey, ⟨router, hrouter⟩, hdry⟩
    | error e =>
      refine Or.inr ⟨?_, fun heard => ?_⟩
      · simp only [changes, hrouter, hcommand, hread]
        rfl
      · simp only [next?, hearing, Invocation.perform, Action.perform, hrouter, hcommand,
          Command.run, hread]
        rfl

/-- What a client's request asks for. -/
def Asks (c : Client) (p : String × List String × Json) : Prop :=
  ∃ type ns name request, c.invocation.command = .patch type ns name request ∧
    request.Asks c.files p

/-- A client that starts asks for what its request asks for. -/
theorem Starts.mem_places_iff {c : Client} {key : StoreKey} {ns : Option String}
    (h : c.Starts key ns) {p : String × List String × Json} : p ∈ c.changes.places ↔ c.Asks p := by
  obtain ⟨request, hcommand, hread⟩ := h.command
  rw [Command.mem_places_iff hread]
  constructor
  · exact fun hasks => ⟨_, _, _, request, hcommand, hasks⟩
  · rintro ⟨type, ns', name, request', hcommand', hasks⟩
    cases hcommand.symm.trans hcommand'
    exact hasks

/-- A client either asks for all that its request asks for, or it makes no request at all. -/
theorem Patches.asked {c : Client} {key : StoreKey} (h : c.Patches key) :
    (∀ p, p ∈ c.changes.places ↔ c.Asks p) ∨
      (c.changes.places = [] ∧ ∀ heard, c.next? heard = none) := by
  -- If it starts, its values are those that were read
  rcases h.starts_or with ⟨ns, hstarts⟩ | ⟨hnone, hsilent⟩
  · exact .inl fun p => hstarts.mem_places_iff
  · exact .inr ⟨by rw [hnone]; rfl, hsilent⟩

/-- The values that a client asks for can be set. -/
theorem settable_changes (c : Client) : c.changes.places.Settable := by
  -- A client that does not start asks for nothing
  have hnone : Changes.places {} |>.Settable := Changes.settable_places fun _ => nofun
  simp only [changes]
  split
  · rename_i request _ _ _
    cases hread : request.read c.files with
    | ok read => exact Command.settable_of_read hread
    | error e => exact hnone
  · exact hnone

/-- The order that a client asks for is as documents of builders hold it. -/
theorem isNormal_changes (c : Client) : c.changes.IsNormal := by
  have hnone : Changes.IsNormal {} := fun _ => nofun
  simp only [changes]
  split
  · rename_i request _ _ _
    cases hread : request.read c.files with
    | ok read => exact Changes.isNormal_of_read hread
    | error e => exact hnone
  · exact hnone

section Starts

variable {c : Client} {key : StoreKey} {ns : Option String} (h : c.Starts key ns)
include h

/-- First the object is got, and then it is patched as it was got. -/
theorem exists_hearing_eq (heard : List Response) : ∃ s w, s.differ = .standard ∧
    s.mode.dryRun = false ∧ w.store = ⟨heard, []⟩ ∧ (c.hearing heard).store =
      ((request (Store.get key.type ns key.name) >>= fun observed =>
        Engine.patch s key.type ns observed (c.changes.apply observed) :
          Action Transcript Unit).run w).2.store := by
  obtain ⟨⟨request, hcommand, hread⟩, -, ⟨router, hrouter⟩, hdry⟩ := h
  refine ⟨{ mode := c.invocation.mode, patience := ⟨c.invocation.timeout, c.interrupt⟩ },
    { store := ⟨heard, []⟩, router }, rfl, hdry, rfl, ?_⟩
  simp only [hearing, Invocation.perform, Action.perform, hrouter, hcommand, Command.run]
  rw [run_bind_of_ok ((run_ofExcept _ _).trans (by rw [hread]; rfl))]

/-- First, a client gets the builder. -/
theorem next?_idle : c.next? [] = some (.get key.type ns key.name) := by
  obtain ⟨s, w, -, -, hstore, hhearing⟩ := exists_hearing_eq h []
  rw [next?, hhearing, run_bind, run_request, hstore]
  rfl

variable (htype : key.type = .builder ∨ key.type = .clusterBuilder) {seen : Resource}
  {document : Json} (hw : document.WellFormed)
  (ho : Resource.ofJson (some key.type) document = .ok seen)
include htype hw ho

/-- All that is asked once the object was got. -/
theorem exists_asked_informed (ahead : List Response) : ∃ watches : List Request,
    (c.hearing (.object (.done (.ok seen)) :: ahead)).store.asked =
      .get key.type ns key.name :: (if c.changes.pending seen = [] then []
        else .patch key.type ns seen.name (specPatch (c.changes.pending seen)) :: watches) ∧
    (watches = [] ∨ ∃ type ns name, watches = [.watch type ns name]) := by
  obtain ⟨s, w, hdiffer, hdry, hstore, hhearing⟩ :=
    exists_hearing_eq h (.object (.done (.ok seen)) :: ahead)
  -- The answer to the `get` is the first that the client hears
  let u : World Transcript := { w with store := ⟨ahead, [.get key.type ns key.name]⟩ }
  have hget : (request (Store.get key.type ns key.name)).run w = (.ok seen, u) := by
    rw [run_request_ok, hstore]
    refine ⟨rfl, ?_⟩
    show u = { w with store := _, logs := w.logs ++ [] }
    rw [List.append_nil]
    rfl
  rw [hhearing, run_bind_of_ok hget]
  have hdiff := diff_apply htype hw ho (settable_changes c)
  rw [← hdiffer] at hdiff
  -- If all that it is asked for is there, the run ends without a word to the store
  by_cases hnone : c.changes.pending seen = []
  · rw [if_pos hnone] at hdiff
    refine ⟨[], ?_, Or.inl rfl⟩
    rw [if_pos hnone, quiet_patch key.type ns seen _ (by rw [hdiff]; rfl) u]
  · rw [if_neg hnone] at hdiff
    have hasked := along_patch key.type ns seen _ hdry (by rw [hdiff]; rfl)
      Transcript.MayWatch.refl (fun object => along_converge_transcript s key.type ns object) u
    rw [hdiff] at hasked
    simp only [if_neg hnone]
    rcases hasked with hasked | ⟨type, ns', name, hasked⟩
    · exact ⟨[], hasked, Or.inl rfl⟩
    · exact ⟨[.watch type ns' name], hasked, Or.inr ⟨type, ns', name, rfl⟩⟩

/-- A client submits what it was asked for and was not there when it looked. -/
theorem next?_informed : c.next? [.object (.done (.ok seen))] =
    if c.changes.pending seen = [] then none
    else some (.patch key.type ns seen.name (specPatch (c.changes.pending seen))) := by
  obtain ⟨watches, hasked, -⟩ := exists_asked_informed h htype hw ho []
  rw [next?, hasked]
  split <;> rfl

/-- After the response to its patch, a client writes no more. -/
theorem next?_finished (response : Response) (rest : List Response) :
    c.next? (.object (.done (.ok seen)) :: response :: rest) = none ∨ ∃ type ns name,
      c.next? (.object (.done (.ok seen)) :: response :: rest) = some (.watch type ns name) := by
  obtain ⟨watches, hasked, hwatches⟩ := exists_asked_informed h htype hw ho (response :: rest)
  rw [next?, hasked]
  split
  · exact Or.inl rfl
  · rcases hwatches with rfl | ⟨type, ns', name, rfl⟩
    · exact Or.inl rfl
    · -- A watch is the last request, and it has no further answer
      cases rest with
      | nil => exact Or.inr ⟨type, ns', name, rfl⟩
      | cons _ _ => exact Or.inl rfl

end Starts

end Client

end BuilderControl
