import BuilderControl.Store.Memory
import BuilderControl.Wait

/-!
# The first instant that decides a wait

A wait is raced by three things: what a watch reports, the timeout, and an interruption.  A script
of watch events decides the wait by itself at one instant at most, which is that of its first event
that is not waited past, or its end; the earliest of the three ends the wait.

## Key results

- `Resource.readiness_eq_failed_iff`: the condition that decides, and what it says of a failure
- `MemoryStore.exists_decision`: every script decides in one way, possibly never
- `MemoryStore.await_timeline_eq`: the decision is what the wait ends with if it is in time
- `MemoryStore.await_of_decision`: the wait ends at the earliest instant, with what happened then
-/

namespace BuilderControl

/-- The status describes a spec that is older than the object's. -/
def Resource.IsStale (r : Resource) : Prop :=
  ∃ status generation observed, r.document.get? "status" = some status ∧
    r.generation? = some generation ∧
    (status.get? "observedGeneration").bind Json.integer? = some observed ∧ observed < generation

/-- What an older status says about readiness does not count. -/
theorem Resource.IsStale.readiness_eq {r : Resource} (h : r.IsStale) : r.readiness = .pending := by
  obtain ⟨status, generation, observed, hstatus, hgeneration, hobserved, hlt⟩ := h
  simp [readiness, hstatus, hgeneration, hobserved, hlt]

/-- The condition that decides about readiness: the first one named `Ready`, in a status that is not
of an older spec. -/
def Resource.IsDecidedBy (r : Resource) (c : Json) : Prop :=
  ¬r.IsStale ∧ ∃ status before after, r.document.get? "status" = some status ∧
    status.get? "conditions" = some (.arr (before ++ c :: after)) ∧
    c.get? "type" = some (.str "Ready") ∧ ∀ b ∈ before, b.get? "type" ≠ some (.str "Ready")

/-- What a condition says about a failure: its message, or else its reason, or else that it is
false. -/
inductive Json.Explains (c : Json) : String → Prop
  | message {text : String} (h : (c.get? "message").bind text? = some text) : Explains c text
  | reason {text : String} (hmessage : (c.get? "message").bind text? = none)
    (h : (c.get? "reason").bind text? = some text) : Explains c text
  | neither (hmessage : (c.get? "message").bind text? = none)
    (hreason : (c.get? "reason").bind text? = none) : Explains c "Ready condition is False"

/-- A condition gives one explanation. -/
theorem Json.explains_iff {c : Json} {text : String} : c.Explains text ↔
    ((c.get? "message").bind text?).getD
      (((c.get? "reason").bind text?).getD "Ready condition is False") = text := by
  constructor
  · intro h
    cases h with
    | message h => rw [h, Option.getD_some]
    | reason hmessage h => rw [hmessage, h, Option.getD_none, Option.getD_some]
    | neither hmessage hreason => rw [hmessage, hreason, Option.getD_none, Option.getD_none]
  · rintro rfl
    cases hmessage : (c.get? "message").bind text? with
    | some text => exact .message hmessage
    | none =>
      cases hreason : (c.get? "reason").bind text? with
      | some text => exact .reason hmessage hreason
      | none => exact .neither hmessage hreason

/-- Of the conditions in a status, the first one that is named `Ready` is looked at. -/
theorem Resource.readyCondition_eq_some_iff {status c : Json} : readyCondition status = some c ↔
    ∃ before after, status.get? "conditions" = some (.arr (before ++ c :: after)) ∧
      c.get? "type" = some (.str "Ready") ∧ ∀ b ∈ before, b.get? "type" ≠ some (.str "Ready") := by
  rw [readyCondition]
  split
  · rename_i conditions hconditions
    -- The condition is the first one of its type in the list
    rw [List.find?_eq_some_iff_append, hconditions]
    simp only [decide_eq_true_eq, Bool.not_eq_true', decide_eq_false_iff_not]
    constructor
    · rintro ⟨hready, before, after, rfl, hbefore⟩
      exact ⟨before, after, rfl, hready, hbefore⟩
    · rintro ⟨before, after, heq, hready, hbefore⟩
      cases heq
      exact ⟨hready, before, after, rfl, hbefore⟩
  · -- Conditions that are no list hold none
    rename_i hnone
    constructor
    · intro h
      cases h
    · rintro ⟨before, after, hconditions, -⟩
      exact absurd hconditions (hnone _)

/-- In a status that is not of an older spec, the condition that decides is what is looked at. -/
private theorem Resource.readiness_of_not_isStale {r : Resource} (h : ¬r.IsStale) {status : Json}
    (hstatus : r.document.get? "status" = some status) :
    r.readiness = (readyCondition status).elim .pending fun c =>
      if c.get? "status" = some (.str "True") then .ready
      else if c.get? "status" = some (.str "False") then
        .failed (((c.get? "message").bind Json.text?).getD
          (((c.get? "reason").bind Json.text?).getD "Ready condition is False"))
      else .pending := by
  rw [readiness]
  simp only [hstatus]
  rw [if_neg]
  · cases readyCondition status <;> rfl
  · -- An observed generation that is smaller would make the status one of an older spec
    intro hsmaller
    split at hsmaller
    · rename_i generation observed hgeneration hobserved
      exact h ⟨status, generation, observed, hstatus, hgeneration, hobserved,
        of_decide_eq_true hsmaller⟩
    · cases hsmaller

/-- Only a condition that decides makes an object more than waited for. -/
private theorem Resource.readiness_eq_iff {r : Resource} {result : Readiness}
    (hresult : result ≠ .pending) : r.readiness = result ↔ ∃ c, r.IsDecidedBy c ∧
      (if c.get? "status" = some (.str "True") then .ready
        else if c.get? "status" = some (.str "False") then
          .failed (((c.get? "message").bind Json.text?).getD
            (((c.get? "reason").bind Json.text?).getD "Ready condition is False"))
        else .pending) = result := by
  by_cases hstale : r.IsStale
  · rw [hstale.readiness_eq]
    refine ⟨fun h => absurd h.symm hresult, ?_⟩
    rintro ⟨c, ⟨hfresh, -⟩, -⟩
    exact absurd hstale hfresh
  cases hstatus : r.document.get? "status" with
  | none =>
    -- Without a status nothing is decided
    rw [readiness]
    simp only [hstatus]
    refine ⟨fun h => absurd h.symm hresult, ?_⟩
    rintro ⟨c, ⟨-, status, before, after, hsome, -⟩, -⟩
    cases hstatus.symm.trans hsome
  | some status =>
    rw [readiness_of_not_isStale hstale hstatus]
    have hdecided : ∀ c, r.IsDecidedBy c ↔ readyCondition status = some c := by
      intro c
      rw [readyCondition_eq_some_iff, IsDecidedBy, hstatus]
      simp [hstale]
    simp only [hdecided]
    cases readyCondition status with
    | none => simpa using fun h : Readiness.pending = result => hresult h.symm
    | some c => simp

/-- An object is ready by the condition that decides. -/
theorem Resource.readiness_eq_ready_iff {r : Resource} :
    r.readiness = .ready ↔ ∃ c, r.IsDecidedBy c ∧ c.get? "status" = some (.str "True") := by
  rw [readiness_eq_iff (by simp)]
  refine exists_congr fun c => and_congr_right fun _ => ?_
  split
  · simp_all
  · split <;> simp_all

/-- An object has failed by the condition that decides, which also says why. -/
theorem Resource.readiness_eq_failed_iff {r : Resource} {message : String} :
    r.readiness = .failed message ↔ ∃ c, r.IsDecidedBy c ∧
      c.get? "status" = some (.str "False") ∧ c.Explains message := by
  rw [readiness_eq_iff (by simp)]
  refine exists_congr fun c => and_congr_right fun _ => ?_
  rw [Json.explains_iff]
  split
  · simp_all
  · split <;> simp_all

namespace MemoryStore

/-! ## What events mean -/

/-- An event that is waited past. -/
inductive Passes (type : ResourceType) : WatchEvent → Prop
  | pending {value : Json} {object : Resource} (hread : readStored type value = .ok object)
    (hpending : object.readiness = .pending) : Passes type (.object value)
  | failure (response : Api.ErrorResponse) : Passes type (.failure response)

/-- An event that decides a wait, with the result. -/
inductive Decides (type : ResourceType) (location : Location) :
    WatchEvent → Except Error Resource → Prop
  | ready {value : Json} {object : Resource} (hread : readStored type value = .ok object)
    (hready : object.readiness = .ready) : Decides type location (.object value) (.ok object)
  | failed {value : Json} {object : Resource} {message : String}
    (hread : readStored type value = .ok object) (hfailed : object.readiness = .failed message) :
    Decides type location (.object value) (.error (.waitFailed type location message))
  | unreadable {value : Json} {e : Error} (hread : readStored type value = .error e) :
    Decides type location (.object value) (.error e)

/-- Milliseconds until the last of some events. -/
def elapsed : List (Nat × WatchEvent) → Nat
  | [] => 0
  | (delay, _) :: events => delay + elapsed events

/-- When a script of events decides a wait by itself, and with what result; nothing, if it never
does. -/
inductive Decision (type : ResourceType) (location : Location) (events : List (Nat × WatchEvent)) :
    Option (Nat × Except Error Resource) → Prop
  /-- The first event that is not waited past decides. -/
  | event {before after : List (Nat × WatchEvent)} {delay : Nat} {event : WatchEvent}
    {result : Except Error Resource} (heq : events = before ++ (delay, event) :: after)
    (hbefore : ∀ e ∈ before, Passes type e.2) (hdecides : Decides type location event result) :
    Decision type location events (some (elapsed before + delay, result))
  /-- Nothing decides until the watch ends. -/
  | closed (hall : ∀ e ∈ events, Passes type e.2) :
    Decision type location events (some (elapsed events, .error (.watchClosed type location)))
  /-- Nothing decides until nothing more is reported. -/
  | hang {before after : List (Nat × WatchEvent)} {delay : Nat}
    (heq : events = before ++ (delay, .hang) :: after)
    (hbefore : ∀ e ∈ before, Passes type e.2) : Decision type location events none

section Events

variable {type : ResourceType} {location : Location} {events : List (Nat × WatchEvent)}
  {decision : Option (Nat × Except Error Resource)}

/-- An event is waited past, or it decides, or nothing comes any more. -/
theorem passes_or_decides (type : ResourceType) (location : Location) (event : WatchEvent) :
    Passes type event ∨ (∃ result, Decides type location event result) ∨ event = .hang := by
  cases event with
  | object value =>
    cases hread : readStored type value with
    | error e => exact Or.inr (Or.inl ⟨_, .unreadable hread⟩)
    | ok object =>
      cases hobject : object.readiness with
      | pending => exact Or.inl (.pending hread hobject)
      | ready => exact Or.inr (Or.inl ⟨_, .ready hread hobject⟩)
      | failed message => exact Or.inr (Or.inl ⟨_, .failed hread hobject⟩)
  | failure response => exact Or.inl (.failure response)
  | hang => exact Or.inr (Or.inr rfl)

/-- An object decides by its condition: it is ready, or it has failed and is said why. -/
theorem decides_object_iff {value : Json} {object : Resource}
    (hread : readStored type value = .ok object) {result : Except Error Resource} :
    Decides type location (.object value) result ↔ ∃ c, object.IsDecidedBy c ∧
      ((c.get? "status" = some (.str "True") ∧ result = .ok object) ∨
        (c.get? "status" = some (.str "False") ∧ ∃ message, c.Explains message ∧
          result = .error (.waitFailed type location message))) := by
  constructor
  · intro h
    cases h with
    | ready hread' hready =>
      cases hread'.symm.trans hread
      obtain ⟨c, hc, htrue⟩ := Resource.readiness_eq_ready_iff.1 hready
      exact ⟨c, hc, .inl ⟨htrue, rfl⟩⟩
    | failed hread' hfailed =>
      cases hread'.symm.trans hread
      obtain ⟨c, hc, hfalse, hmessage⟩ := Resource.readiness_eq_failed_iff.1 hfailed
      exact ⟨c, hc, .inr ⟨hfalse, _, hmessage, rfl⟩⟩
    | unreadable hread' => cases hread'.symm.trans hread
  · rintro ⟨c, hc, ⟨htrue, rfl⟩ | ⟨hfalse, message, hmessage, rfl⟩⟩
    · exact .ready hread (Resource.readiness_eq_ready_iff.2 ⟨c, hc, htrue⟩)
    · exact .failed hread (Resource.readiness_eq_failed_iff.2 ⟨c, hc, hfalse, hmessage⟩)

/-- A decision that comes later. -/
def later (delay : Nat) (decision : Option (Nat × Except Error Resource)) :
    Option (Nat × Except Error Resource) :=
  decision.map fun d => (delay + d.1, d.2)

/-- What decides after an event that is waited past decides the whole script. -/
theorem Decision.cons (h : Decision type location events decision) {delay : Nat}
    {event : WatchEvent} (hp : Passes type event) :
    Decision type location ((delay, event) :: events) (later delay decision) := by
  have hcons : ∀ {before : List (Nat × WatchEvent)}, (∀ e ∈ before, Passes type e.2) →
      ∀ e ∈ (delay, event) :: before, Passes type e.2 :=
    fun hbefore => List.forall_mem_cons.2 ⟨hp, hbefore⟩
  cases h with
  | @event before after wait decisive result heq hbefore hdecides =>
    subst heq
    have hdecision := @Decision.event type location ((delay, event) :: (before ++ _))
      ((delay, event) :: before) after wait decisive result rfl (hcons hbefore) hdecides
    rwa [elapsed, Nat.add_assoc] at hdecision
  | closed hall =>
    have hdecision := @Decision.closed type location _ (hcons hall)
    rwa [elapsed] at hdecision
  | @hang before after wait heq hbefore =>
    subst heq
    exact @Decision.hang type location ((delay, event) :: (before ++ _))
      ((delay, event) :: before) after wait rfl (hcons hbefore)

/-- A decision is made by the first event or by what comes after it. -/
theorem Decision.of_cons {delay : Nat} {event : WatchEvent}
    (h : Decision type location ((delay, event) :: events) decision) :
    (∃ result, Decides type location event result ∧ decision = some (delay, result)) ∨
      (event = .hang ∧ decision = none) ∨
      (Passes type event ∧ ∃ rest, Decision type location events rest ∧
        decision = later delay rest) := by
  cases h with
  | @event before after wait decisive result heq hbefore hdecides =>
    cases before with
    | nil =>
      -- The first event decides
      cases heq
      exact Or.inl ⟨result, hdecides, by simp [elapsed]⟩
    | cons first before =>
      -- A later event decides, so the first one passes
      cases heq
      obtain ⟨hp, hrest⟩ := List.forall_mem_cons.1 hbefore
      refine Or.inr (Or.inr ⟨hp, _, .event rfl hrest hdecides, ?_⟩)
      simp [later, elapsed, Nat.add_assoc]
  | closed hall =>
    obtain ⟨hp, hrest⟩ := List.forall_mem_cons.1 hall
    refine Or.inr (Or.inr ⟨hp, _, .closed hrest, ?_⟩)
    simp [later, elapsed]
  | @hang before after wait heq hbefore =>
    cases before with
    | nil =>
      -- The watch hangs from the start
      cases heq
      exact Or.inr (Or.inl ⟨rfl, rfl⟩)
    | cons first before =>
      cases heq
      obtain ⟨hp, hrest⟩ := List.forall_mem_cons.1 hbefore
      exact Or.inr (Or.inr ⟨hp, none, .hang rfl hrest, rfl⟩)

variable (type location events) in
/-- Every script decides in one of the three ways. -/
theorem exists_decision : ∃ decision, Decision type location events decision := by
  induction events with
  | nil => exact ⟨_, .closed (by simp)⟩
  | cons e events ih =>
    obtain ⟨delay, event⟩ := e
    rcases passes_or_decides type location event with hp | ⟨result, hd⟩ | rfl
    · obtain ⟨decision, hdecision⟩ := ih
      exact ⟨_, hdecision.cons hp⟩
    · exact ⟨_, .event (List.nil_append _).symm (by simp) hd⟩
    · exact ⟨none, .hang (List.nil_append _).symm (by simp)⟩

end Events

/-! ## Waiting for a decision -/

/-- Result and end of a wait when a decision is to be made, if it is. -/
def settledBy (patience : Patience) (type : ResourceType) (location : Location) :
    Option (Nat × Except Error Resource) → Except Error Resource × Nat
  | some (instant, result) =>
    if instant ≤ patience.limit then (result, instant)
    else (.error (patience.giveUp type location), patience.limit)
  | none => (.error (patience.giveUp type location), patience.limit)

section Await

variable {type : ResourceType} {ns : Option String} {name : String}
  {events : List (Nat × WatchEvent)} {decision : Option (Nat × Except Error Resource)}
  (patience : Patience)

/-- How an event that is waited past is judged. -/
theorem Passes.goOn {event : WatchEvent} (h : Passes type event) :
    ∃ result entry, report type ns name event = some result ∧
      Verdict.ofReport type ⟨name, ns⟩ result = .goOn entry := by
  cases h with
  | @pending value object hread hpending =>
    refine ⟨.ok object, ⟨.debug, type.name ++ " " ++ Location.text ⟨name, ns⟩ ++
      " is not ready yet"⟩, congrArg some hread, ?_⟩
    simp only [Verdict.ofReport, hpending]
  | failure response => exact ⟨_, _, rfl, rfl⟩

/-- An unreadable object is no failure of the watch. -/
theorem verdict_of_readStored {value : Json} {e : Error} (h : readStored type value = .error e)
    (location : Location) : Verdict.ofReport type location (.error e) = .decided (.error e) := by
  cases hr : Resource.ofJson (some type) value with
  | ok object => rw [readStored, hr] at h; cases h
  | error fault => rw [readStored, hr] at h; cases h; rfl

/-- How an event that decides is judged. -/
theorem Decides.decided {event : WatchEvent} {result : Except Error Resource}
    (h : Decides type ⟨name, ns⟩ event result) :
    ∃ reported, report type ns name event = some reported ∧
      Verdict.ofReport type ⟨name, ns⟩ reported = .decided result := by
  cases h with
  | ready hread hready =>
    refine ⟨_, congrArg some hread, ?_⟩
    simp only [Verdict.ofReport, hready]
  | failed hread hfailed =>
    refine ⟨_, congrArg some hread, ?_⟩
    simp only [Verdict.ofReport, hfailed]
  | unreadable hread => exact ⟨_, congrArg some hread, verdict_of_readStored hread _⟩

/-- Following a script from an instant on: if the decision is in time, it is what the wait ends
with, and if not, the wait is given up. -/
private theorem follow_timeline_eq (h : Decision type ⟨name, ns⟩ events decision) (now : Nat)
    (store : MemoryStore) :
    let line := timeline type ns name events
    let outcome := follow patience type ⟨name, ns⟩ line.ending now line.steps store
    (outcome.result, outcome.ended) =
      settledBy patience type ⟨name, ns⟩ (later now decision) := by
  induction events generalizing now decision with
  | nil =>
    -- Without events, only the end is left to decide
    have hclosed : decision = some (0, .error (.watchClosed type ⟨name, ns⟩)) := by
      cases h with
      | event heq => simp at heq
      | closed => rfl
      | hang heq => simp at heq
    subst hclosed
    simp only [timeline, follow, later, settledBy, Option.map_some]
    split <;> rfl
  | cons e events ih =>
    obtain ⟨delay, event⟩ := e
    rcases h.of_cons with ⟨result, hd, rfl⟩ | ⟨rfl, rfl⟩ | ⟨hp, rest, hrest, rfl⟩
    · obtain ⟨reported, hreport, hverdict⟩ := hd.decided
      simp only [timeline, hreport, follow, hverdict, later, settledBy, Option.map_some]
      split <;> rfl
    · rfl
    · obtain ⟨reported, entry, hreport, hverdict⟩ := @Passes.goOn type ns name event hp
      have hnext := ih hrest (now + delay)
      have hlater : later now (later delay rest) = later (now + delay) rest := by
        cases rest <;> simp [later, Nat.add_assoc]
      simp only [timeline, hreport, follow, hverdict, hlater]
      split
      · exact hnext
      · -- If this event is too late, so is everything that comes after it
        rename_i hlate
        cases rest with
        | none => rfl
        | some d =>
          have hd : ¬ now + delay + d.1 ≤ patience.limit := by omega
          simp [later, settledBy, hd, Patience.givenUp]

/-- The decision of a script is what a wait ends with if it is in time. -/
theorem await_timeline_eq (h : Decision type ⟨name, ns⟩ events decision) (store : MemoryStore) :
    let outcome := (timeline type ns name events).await patience type ⟨name, ns⟩ store
    (outcome.result, outcome.ended) = settledBy patience type ⟨name, ns⟩ decision := by
  have hfollow := follow_timeline_eq patience h 0 store
  have hlater : later 0 decision = decision := by cases decision <;> simp [later]
  rwa [hlater] at hfollow

end Await

/-- The instants that may end a wait. -/
def instants (decision : Option (Nat × Except Error Resource)) (patience : Patience) : List Nat :=
  (decision.map Prod.fst).toList ++ patience.timeout.milliseconds :: patience.interrupt.toList

/-- A wait ends at the earliest instant that may end it, with what happens then. -/
structure EndsFirst (patience : Patience) (type : ResourceType) (location : Location)
    (decision : Option (Nat × Except Error Resource)) (outcome : WaitOutcome MemoryStore) :
    Prop where
  ended : (instants decision patience).min? = some outcome.ended
  decided : ∀ instant result, decision = some (instant, result) → outcome.ended = instant →
    outcome.result = result
  timeout : outcome.ended = patience.timeout.milliseconds →
    outcome.result = .error (.waitTimeout type location patience.timeout)
  interrupted : patience.interrupt = some outcome.ended →
    outcome.result = .error (.waitInterrupted type location)

section First

variable {type : ResourceType} {ns : Option String} {name : String}
  {events : List (Nat × WatchEvent)} {decision : Option (Nat × Except Error Resource)}

/-- Whatever decides, waiting ends by the timeout or the interruption at the latest. -/
theorem settledBy_le (patience : Patience) (type : ResourceType) (location : Location)
    (decision : Option (Nat × Except Error Resource)) :
    (settledBy patience type location decision).2 ≤ patience.limit := by
  cases decision with
  | none => exact Nat.le_refl _
  | some d =>
    simp only [settledBy]
    split
    · assumption
    · exact Nat.le_refl _

/-- Waiting is given up at the timeout or at the interruption, whichever comes first. -/
theorem limit_min (p : Patience) :
    p.limit ∈ p.timeout.milliseconds :: p.interrupt.toList ∧
      ∀ instant ∈ p.timeout.milliseconds :: p.interrupt.toList, p.limit ≤ instant := by
  obtain ⟨timeout, interrupt⟩ := p
  cases interrupt with
  | none => simp [Patience.limit]
  | some instant => simp [Patience.limit]; omega

/-- The error with which waiting is given up says why. -/
theorem giveUp_eq {p : Patience} (h : p.interrupt ≠ some p.timeout.milliseconds)
    (type : ResourceType) (location : Location) :
    (p.limit = p.timeout.milliseconds →
        p.giveUp type location = .waitTimeout type location p.timeout) ∧
      (p.interrupt = some p.limit → p.giveUp type location = .waitInterrupted type location) := by
  obtain ⟨timeout, interrupt⟩ := p
  cases interrupt with
  | none => simp [Patience.giveUp, Patience.isInterrupted]
  | some instant =>
    have hne : instant ≠ timeout.milliseconds := fun heq => h (congrArg some heq)
    simp only [Patience.limit, Patience.giveUp, Patience.isInterrupted, Option.any_some,
      decide_eq_true_eq, Option.some.injEq]
    constructor
    · intro hlimit
      rw [if_neg (by omega)]
    · intro hlimit
      rw [if_pos (by omega)]

/-- Without coincidences, the earliest instant ends the wait. -/
theorem endsFirst_settledBy {patience : Patience} (hapart : (instants decision patience).Nodup)
    {outcome : WaitOutcome MemoryStore} {location : Location}
    (h : (outcome.result, outcome.ended) = settledBy patience type location decision) :
    EndsFirst patience type location decision outcome := by
  obtain ⟨result, store, logs, ended⟩ := outcome
  obtain ⟨hmem, hle⟩ := limit_min patience
  have hdistinct : patience.interrupt ≠ some patience.timeout.milliseconds := by
    have hgivenUp := (List.nodup_cons.1 (List.nodup_append.1 hapart).2.1).1
    rwa [Option.mem_toList] at hgivenUp
  -- Timeout and interruption are apart, so the error tells which of them came.
  obtain ⟨htimeout, hinterrupt⟩ := giveUp_eq hdistinct type location
  cases decision with
  | none =>
    -- Nothing decides, so waiting is given up
    cases h
    exact ⟨List.min?_eq_some_iff.2 ⟨hmem, hle⟩, nofun, fun ht => congrArg _ (htimeout ht),
      fun hc => congrArg _ (hinterrupt hc)⟩
  | some d =>
    obtain ⟨instant, decided⟩ := d
    simp only [settledBy] at h
    split at h
    · -- The script decides in time, and nothing else happens at that instant
      rename_i hintime
      cases h
      simp only [instants, Option.map_some, Option.toList_some, List.cons_append, List.nil_append,
        List.nodup_cons, List.mem_cons, not_or] at hapart
      obtain ⟨⟨hnt, hnc⟩, -⟩ := hapart
      refine ⟨List.min?_eq_some_iff.2 ⟨List.mem_cons_self, fun i hi => ?_⟩,
        fun _ _ heq _ => ?_, fun ht => absurd ht hnt, fun hc => absurd ?_ hnc⟩
      · rcases List.mem_cons.1 hi with rfl | hi
        · exact Nat.le_refl _
        · exact Nat.le_trans hintime (hle i hi)
      · cases heq
        rfl
      · exact Option.mem_toList.2 hc
    · -- The script would decide too late
      rename_i hlate
      cases h
      refine ⟨List.min?_eq_some_iff.2 ⟨List.mem_cons_of_mem _ hmem, fun i hi => ?_⟩,
        fun _ _ heq hend => ?_, fun ht => congrArg _ (htimeout ht),
        fun hc => congrArg _ (hinterrupt hc)⟩
      · rcases List.mem_cons.1 hi with rfl | hi
        · exact Nat.le_of_lt (Nat.lt_of_not_le hlate)
        · exact hle i hi
      · cases heq
        exact absurd (Nat.le_of_eq hend.symm) hlate

/-- A wait ends at the first instant that decides it.  Whatever the script holds before and after
its own decision makes no difference.  An object decides by its `Ready` condition, but conditions of
an older spec decide nothing. -/
theorem await_of_decision (type : ResourceType) (ns : Option String) (name : String)
    (events : List (Nat × WatchEvent)) (patience : Patience) (store : MemoryStore) :
    let wait (events : List (Nat × WatchEvent)) : WaitOutcome MemoryStore :=
      (timeline type ns name events).await patience type ⟨name, ns⟩ store
    (∃ decision, Decision type ⟨name, ns⟩ events decision) ∧
      (∀ decision, Decision type ⟨name, ns⟩ events decision →
        (instants decision patience).Nodup →
          EndsFirst patience type ⟨name, ns⟩ decision (wait events) ∧
          ∀ others, Decision type ⟨name, ns⟩ others decision →
            (wait others).result = (wait events).result ∧
              (wait others).ended = (wait events).ended) ∧
      ((wait events).ended ≤ patience.timeout.milliseconds ∧
        ∀ instant, patience.interrupt = some instant → (wait events).ended ≤ instant) ∧
      (∀ value object, readStored type value = .ok object → object.IsStale →
        Passes type (.object value)) ∧
      ∀ value object, readStored type value = .ok object → ∀ result,
        Decides type ⟨name, ns⟩ (.object value) result ↔ ∃ c, object.IsDecidedBy c ∧
          ((c.get? "status" = some (.str "True") ∧ result = .ok object) ∨
            (c.get? "status" = some (.str "False") ∧ ∃ message, c.Explains message ∧
              result = .error (.waitFailed type ⟨name, ns⟩ message))) := by
  intro wait
  -- A wait is settled by what decides its script, and by nothing else of it.
  have hwait {events decision} (h : Decision type ⟨name, ns⟩ events decision) :
      ((wait events).result, (wait events).ended) = settledBy patience type ⟨name, ns⟩ decision :=
    await_timeline_eq patience h store
  obtain ⟨decision, hdecision⟩ := exists_decision type ⟨name, ns⟩ events
  have hend : (wait events).ended ≤ patience.limit := by
    have hle := settledBy_le patience type ⟨name, ns⟩ decision
    rwa [← hwait hdecision] at hle
  obtain ⟨-, hlimit⟩ := limit_min patience
  refine ⟨⟨decision, hdecision⟩, fun decision h hapart => ⟨endsFirst_settledBy hapart (hwait h),
    fun others ho => ?_⟩, ⟨?_, fun instant hi => ?_⟩, fun value object hread hstale => ?_,
    fun value object hread result => decides_object_iff hread⟩
  · exact Prod.mk.inj ((hwait ho).trans (hwait h).symm)
  · exact Nat.le_trans hend (hlimit _ List.mem_cons_self)
  · exact Nat.le_trans hend (hlimit _ (List.mem_cons_of_mem _ (Option.mem_toList.2 hi)))
  · exact .pending hread hstale.readiness_eq

/-- A ready status of an older spec and an interrupted watch are waited past; what comes after the
ready object is too late, and a failure has the reason of the condition if that has no message. -/
theorem await_of_decision_stale :
    let image (observed : Int) (conditions : List Json) : Json := .obj
      [("metadata", .obj [("generation", .num (.int 2)), ("name", .str "app")]),
        ("spec", .obj [("builder", .obj []), ("tag", .str "r/app")]),
        ("status", .obj [("conditions", .arr conditions),
          ("observedGeneration", .num (.int observed))])]
    let ready : Json := .obj [("status", .str "True"), ("type", .str "Ready")]
    let failed : Json := .obj
      [("reason", .str "BuildFailed"), ("status", .str "False"), ("type", .str "Ready")]
    let built : Json := .obj [("status", .str "True"), ("type", .str "Succeeded")]
    let before : List (Nat × WatchEvent) := [(10, .object (image 1 [ready])), (5, .failure default)]
    let wait (last : Json) : WaitOutcome MemoryStore :=
      (timeline .image none "app" (before ++ [(20, .object last), (0, .object .null)])).await
        ⟨.ofSeconds 1, some 500⟩ .image ⟨"app", none⟩ {}
    (wait (image 2 [ready])).ended = 35 ∧
      (wait (image 2 [ready])).result = .ok ⟨some .image, image 2 [ready]⟩ ∧
      (wait (image 2 [built, failed])).ended = 35 ∧
      (wait (image 2 [built, failed])).result =
        .error (.waitFailed .image ⟨"app", none⟩ "BuildFailed") := by
  intro image ready failed built before wait
  have hpasses : ∀ e ∈ before, Passes .image e.2 := by
    intro e he
    simp only [before, List.mem_cons, List.not_mem_nil, or_false] at he
    rcases he with rfl | rfl
    · have hread : readStored .image (image 1 [ready]) = .ok ⟨some .image, image 1 [ready]⟩ := by rfl
      exact .pending hread (by decide)
    · exact .failure default
  -- Whatever the last object decides, it decides in time
  have hends : ∀ last result, Decides .image ⟨"app", none⟩ (.object last) result →
      (wait last).ended = 35 ∧ (wait last).result = result := by
    intro last result hdecides
    have hdecision : Decision .image ⟨"app", none⟩
        (before ++ [(20, .object last), (0, .object .null)]) (some (35, result)) :=
      @Decision.event _ _ _ before [(0, .object .null)] 20 _ _ rfl hpasses hdecides
    obtain ⟨hfirst, -⟩ := (await_of_decision .image none "app"
      (before ++ [(20, .object last), (0, .object .null)]) ⟨.ofSeconds 1, some 500⟩ {}).2.1 _
      hdecision (by show [35, 1000, 500].Nodup; decide)
    have hended : (wait last).ended = 35 := (Option.some.inj hfirst.ended).symm
    exact ⟨hended, hfirst.decided 35 result rfl hended⟩
  have hready : readStored .image (image 2 [ready]) = .ok ⟨some .image, image 2 [ready]⟩ := by rfl
  have hfailed : readStored .image (image 2 [built, failed]) =
      .ok ⟨some .image, image 2 [built, failed]⟩ := by rfl
  obtain ⟨hended, hresult⟩ := hends (image 2 [ready]) _ (.ready hready (by decide))
  obtain ⟨hended', hresult'⟩ := hends (image 2 [built, failed]) _
    (@Decides.failed _ _ _ _ "BuildFailed" hfailed (by decide))
  exact ⟨hended, hresult, hended', hresult'⟩

end First

end MemoryStore

end BuilderControl
