import BuilderControl.Proofs.Routing

/-!
# Streams that run full

A sink with a limit takes the bytes before the limit and nothing after it, however the bytes are cut
into writes.  So what a run of emissions leaves in a stream is a beginning of what it would leave
there without a limit.  An emission that would not fail without limits fails only if one of its own
bytes is beyond the limit of its stream; a later one that writes nothing succeeds again.

## Key results

- `Sink.taken_writeText_of_empty`, `Sink.fits_after_iff`: texts up to a limit
- `Router.getElem?_emitAll`: what each emission of a run comes to
- `Router.fails_emitAll_iff`: when an emission of a run fails
- `Router.emitAll_truncates`: a run with limits beside the same run without them
-/

namespace BuilderControl

namespace Sink

/-- What a limit leaves of some bytes: those before it. -/
def cut (limit : Option Nat) (bytes : List UInt8) : List UInt8 :=
  match limit with
  | none => bytes
  | some l => bytes.take l

/-- Of the bytes with which a stream grows from one length to another, at least one is beyond the
limit. -/
def Crosses (limit : Option Nat) (before after : Nat) : Prop :=
  ∃ l, limit = some l ∧ ∃ position, before ≤ position ∧ position < after ∧ l ≤ position

/-- More bytes fit unless one of them is beyond the limit. -/
private theorem write_fits_iff {limit : Option Nat} {a b : List UInt8} :
    (((⟨limit, []⟩ : Sink).write a).2.write b).1 = true ↔
      ¬Crosses limit a.length (a ++ b).length := by
  cases limit with
  | none => simp [write, room, Crosses]
  | some l =>
    -- What is left of the room depends on how much of the first bytes was taken
    simp only [write, room, List.nil_append, List.length_nil, Nat.sub_zero, List.length_take,
      decide_eq_true_iff, Crosses, Option.some.injEq, exists_eq_left', List.length_append]
    constructor
    · rintro hroom ⟨position, hbefore, hafter, hl⟩
      omega
    · intro hcrosses
      -- If there were not room for all of `b`, the last of its bytes would be beyond the limit
      refine Decidable.byContradiction fun hroom => hcrosses ?_
      exact ⟨a.length + b.length - 1, by omega, by omega, by omega⟩

section

variable {s : Sink} (h : s.taken = [])
include h

/-- Into an empty sink, a text is written up to the limit. -/
theorem taken_writeText_of_empty (text : String) :
    (s.writeText text).2.taken = cut s.limit (Text.bytes text) := by
  obtain ⟨_ | l, taken⟩ := s
  · cases h
    rw [taken_writeText rfl, List.nil_append, cut]
  · cases h
    simp only [writeText, ← Text.bytes.eq_1, write, room, List.nil_append, List.length_nil,
      Nat.sub_zero, cut]
    -- The limit cuts no more than the length of the text does
    rw [List.take_eq_take_iff]
    omega

/-- A second text fits unless it has a byte beyond the limit. -/
theorem fits_after_iff {a b : String} : (s.writeText a).2.Fits b ↔
    ¬Crosses s.limit (Text.bytes a).length (Text.bytes (a ++ b)).length := by
  obtain ⟨limit, taken⟩ := s
  cases h
  rw [Text.bytes_append]
  exact write_fits_iff

end

end Sink

namespace Router

/-! ## What each emission comes to -/

/-- A run comes to one result for each emission. -/
theorem length_emitAll (r : Router) (es : List Emission) : (r.emitAll es).1.length = es.length := by
  induction es generalizing r with
  | nil => rfl
  | cons e es ih => rw [emitAll, List.length_cons, ih, List.length_cons]

/-- An emission of a run finds the router as the emissions before it left it. -/
theorem getElem?_emitAll (r : Router) (es : List Emission) (k : Nat) :
    (r.emitAll es).1[k]? = es[k]?.map fun e => ((r.emitAll (es.take k)).2.emit e).1 := by
  -- On the emissions: the first one leaves the router to those after it
  induction es generalizing r k with
  | nil => rfl
  | cons e es ih =>
    cases k with
    | zero => rfl
    | succ k => exact ih (r.emit e).2 k

/-- The `k`th emission of a run fails. -/
def Fails (run : List (Except Error Unit) × Router) (k : Nat) : Prop :=
  ∃ error, run.1[k]? = some (.error error)

/-- What is given to the router here is dropped: no object, or a result where objects are printed. -/
def Drops (r : Router) (e : Emission) : Prop :=
  e = .objects [] ∨ r.format.isSome ∧ ∃ text, e = .result text

/-- An emission of a run fails if it does with the router that is left by those before it. -/
theorem fails_iff {r : Router} {es : List Emission} {k : Nat} {e : Emission}
    (he : es[k]? = some e) :
    Fails (r.emitAll es) k ↔ ((r.emitAll (es.take k)).2.emit e).1 ≠ .ok () := by
  rw [Fails, getElem?_emitAll, he, Option.map_some]
  cases ((r.emitAll (es.take k)).2.emit e).1 with
  | error error => simp
  | ok _ => simp

/-- What is dropped does not fail. -/
theorem emit_of_drops {r : Router} {e : Emission} (h : r.Drops e) : (r.emit e).1 = .ok () := by
  rcases h with rfl | ⟨hformat, text, rfl⟩
  · obtain ⟨dryRun, _ | format, registry, out, err⟩ := r <;> rfl
  · obtain ⟨format, hformat⟩ := Option.isSome_iff_exists.1 hformat
    rw [emit, emitResult, hformat]

/-- What an emission adds to standard output does not depend on the emissions before it. -/
theorem outText_emitAll (r : Router) (es : List Emission) :
    (r.emitAll es).2.outText = r.outText := by
  rw [emitAll_snd]
  rfl

/-- What an emission adds to standard error does not depend on the emissions before it. -/
theorem errText_emitAll (r : Router) (es : List Emission) :
    (r.emitAll es).2.errText = r.errText := by
  rw [emitAll_snd]
  rfl

/-- What is refused does not depend on the emissions before it. -/
theorem outcome_emitAll (r : Router) (es : List Emission) :
    (r.emitAll es).2.outcome = r.outcome := by
  rw [emitAll_snd]
  rfl

/-! ## A run from empty streams -/

/-- The bytes that emissions have for standard output. -/
def outBytes (r : Router) (es : List Emission) : List UInt8 :=
  Text.bytes (String.join (es.map r.outText))

/-- The bytes that emissions have for standard error. -/
def errBytes (r : Router) (es : List Emission) : List UInt8 :=
  Text.bytes (String.join (es.map r.errText))

section

variable {r : Router} (hout : r.out.taken = []) (herr : r.err.taken = []) (es : List Emission)

include hout in
/-- Standard output has the bytes of the emissions up to its limit. -/
theorem taken_out_emitAll :
    (r.emitAll es).2.out.taken = Sink.cut r.out.limit (r.outBytes es) := by
  rw [emitAll_snd]
  exact Sink.taken_writeText_of_empty hout _

include herr in
/-- Standard error has the bytes of the emissions up to its limit. -/
theorem taken_err_emitAll :
    (r.emitAll es).2.err.taken = Sink.cut r.err.limit (r.errBytes es) := by
  rw [emitAll_snd]
  exact Sink.taken_writeText_of_empty herr _

include hout herr in
/-- An emission of a run fails if it is refused or has a byte beyond the limit of a stream. -/
theorem fails_emitAll_iff {k : Nat} {e : Emission} (he : es[k]? = some e) :
    Fails (r.emitAll es) k ↔ r.outcome e ≠ .ok () ∨
      Sink.Crosses r.out.limit (r.outBytes (es.take k)).length
        (r.outBytes (es.take (k + 1))).length ∨
      Sink.Crosses r.err.limit (r.errBytes (es.take k)).length
        (r.errBytes (es.take (k + 1))).length := by
  -- The emission adds its own text to what the ones before it have for a stream
  have hnext : ∀ text : Emission → String, String.join ((es.take (k + 1)).map text) =
      String.join ((es.take k).map text) ++ text e := fun text => by
    rw [List.take_add_one, he, Option.toList_some, List.map_append, String.join_append,
      List.map_singleton, String.join_cons, String.join_nil, String.append_empty]
  have houtFits : (r.emitAll (es.take k)).2.out.Fits (r.outText e) ↔
      ¬Sink.Crosses r.out.limit (r.outBytes (es.take k)).length
        (r.outBytes (es.take (k + 1))).length := by
    rw [emitAll_snd, outBytes, outBytes, hnext]
    exact Sink.fits_after_iff hout
  have herrFits : (r.emitAll (es.take k)).2.err.Fits (r.errText e) ↔
      ¬Sink.Crosses r.err.limit (r.errBytes (es.take k)).length
        (r.errBytes (es.take (k + 1))).length := by
    rw [emitAll_snd, errBytes, errBytes, hnext]
    exact Sink.fits_after_iff herr
  -- It fails if it is refused, or if one of its two texts does not fit
  rw [fails_iff he, Ne, emit_eq_ok_iff, outcome_emitAll, outText_emitAll, errText_emitAll,
    houtFits, herrFits, Classical.not_and_iff_not_or_not, Classical.not_and_iff_not_or_not,
    Classical.not_not, Classical.not_not]

end

/-! ## A run with limits beside one without -/

/-- How two runs of the same emissions differ if only the second one has limits.  The length of a
stream before and after an emission is the one it has without limits. -/
structure Truncates (outLimit errLimit : Option Nat) (es : List Emission)
    (full limited : Router) : Prop where
  out : (limited.emitAll es).2.out.taken = Sink.cut outLimit (full.emitAll es).2.out.taken
  err : (limited.emitAll es).2.err.taken = Sink.cut errLimit (full.emitAll es).2.err.taken
  results : (limited.emitAll es).1.length = es.length
  fails : ∀ k < es.length, Fails (limited.emitAll es) k ↔
    Fails (full.emitAll es) k ∨
      Sink.Crosses outLimit (full.emitAll (es.take k)).2.out.taken.length
        (full.emitAll (es.take (k + 1))).2.out.taken.length ∨
      Sink.Crosses errLimit (full.emitAll (es.take k)).2.err.taken.length
        (full.emitAll (es.take (k + 1))).2.err.taken.length
  drops : ∀ k e, es[k]? = some e → limited.Drops e → ¬Fails (limited.emitAll es) k

/-- With limits on its streams, a run leaves in each of them what is before the limit of what it
leaves there without limits, and an emission fails if it does so without limits or has a byte of its
own beyond the limit of its stream. -/
theorem emitAll_truncates {mode : Mode} {registry : Registry} {full : Router}
    (h : ofMode mode registry {} {} = .ok full) (outLimit errLimit : Option Nat)
    (es : List Emission) :
    ∃ limited, ofMode mode registry { limit := outLimit } { limit := errLimit } = .ok limited ∧
      Truncates outLimit errLimit es full limited := by
  obtain ⟨format, hformat, rfl⟩ := ofMode_eq_ok_iff.1 h
  refine ⟨⟨mode.dryRun, format, registry, { limit := outLimit }, { limit := errLimit }⟩,
    ofMode_eq_ok_iff.2 ⟨format, hformat, rfl⟩, ?_⟩
  -- The run without limits fails only where an emission is refused
  have hnever : ∀ before after, ¬Sink.Crosses none before after := by
    rintro before after ⟨l, hl, -⟩
    cases hl
  constructor
  · rw [taken_out_emitAll rfl, taken_out_emitAll rfl]
    rfl
  · rw [taken_err_emitAll rfl, taken_err_emitAll rfl]
    rfl
  · exact length_emitAll _ es
  · intro k hk
    have he := List.getElem?_eq_getElem hk
    -- Without limits, the second case can not be
    have hfull := fails_emitAll_iff (r := ⟨mode.dryRun, format, registry, {}, {}⟩) rfl rfl es he
    simp only [hnever, or_false] at hfull
    rw [fails_emitAll_iff rfl rfl es he, hfull, taken_out_emitAll rfl, taken_out_emitAll rfl,
      taken_err_emitAll rfl, taken_err_emitAll rfl]
    rfl
  · -- The emissions before change the streams only, so the same things are dropped
    intro k e he hdrops
    rw [fails_iff he, Classical.not_not]
    refine emit_of_drops ?_
    rw [emitAll_snd]
    exact hdrops

/-- Both streams run full, and what is given to the router afterwards is dropped. -/
theorem emitAll_truncates_yaml :
    let pod : Resource := ⟨none, .obj [("apiVersion", .str "v1"), ("kind", .str "Pod")]⟩
    let es : List Emission :=
      [.status "reading", .objects [pod], .line "read", .result "printed", .objects []]
    ∃ full limited, ofMode { output := some "yaml" } {} {} {} = .ok full ∧
      ofMode { output := some "yaml" } {} { limit := some 10 } { limit := some 9 } = .ok limited ∧
      Truncates (some 10) (some 9) es full limited ∧
      (limited.emitAll es).1.map (·.isOk) = [true, false, false, true, true] ∧
      (limited.emitAll es).2.out.taken = Text.bytes "---\napiVer" ∧
      (limited.emitAll es).2.err.taken = Text.bytes "reading\nr" := by
  intro pod es
  have hmode : ofMode { output := some "yaml" } {} {} {} = .ok ⟨false, some .yaml, {}, {}, {}⟩ := rfl
  obtain ⟨limited, hlimited, htruncates⟩ := emitAll_truncates hmode (some 10) (some 9) es
  refine ⟨_, limited, hmode, hlimited, htruncates, ?_⟩
  -- The limits stand in the middle of a document, and of a line of progress
  cases hlimited
  decide +kernel

end Router

end BuilderControl
