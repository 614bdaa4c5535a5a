import BuilderControl.Output.Router
import BuilderControl.Proofs.Records
import BuilderControl.Proofs.Sinks
import BuilderControl.Proofs.YamlLines

/-!
# What goes to which stream

A router is given texts and objects in any order, and goes on after something could not be printed.
Each emission adds a text to standard output and a text to standard error, which are settled by the
emission and by how the router was made.  So a stream carries the texts of a run one after the
other, and an emission that is refused leaves no trace in it.

## Key results

- `Router.emit_snd`, `Router.emit_eq_ok_iff`: one emission, with sinks of any size
- `Router.emitAll_snd`: a run of emissions, with sinks of any size
- `Router.emitAll_streams`: the streams of a run, with sinks that take everything
-/

namespace BuilderControl

/-- Something that is given to a router. -/
inductive Emission where
  | result (text : String)
  | status (text : String)
  | line (text : String)
  | objects (objects : List Resource)
deriving DecidableEq, Inhabited

namespace Emission

/-- What is told if text is shown. -/
def narration (dryRun : Bool) : Emission → String
  | .result text | .status text => text ++ (if dryRun then " (dry run)" else "") ++ "\n"
  | .line text => text ++ "\n"
  | .objects _ => ""

/-- What is told besides the objects that are printed. -/
def progress (dryRun : Bool) : Emission → String
  | .result _ | .objects _ => ""
  | .status text => text ++ (if dryRun then " (dry run)" else "") ++ "\n"
  | .line text => text ++ "\n"

/-- What is printed: the documents of objects, but nothing if one of them can not be printed. -/
def print (format : Format) (registry : Registry) : Emission → String
  | .objects shown => match shown.mapM (Router.printed registry) with
    | .ok documents => String.join (documents.map format.document)
    | .error _ => ""
  | .result _ | .status _ | .line _ => ""

/-- What comes of an emission where there is room for it and objects are printed: only objects
can fail, and they do if one of them can not be printed. -/
def outcome (registry : Registry) : Emission → Except Error Unit
  | .objects shown => (shown.mapM (Router.printed registry)).map fun _ => ()
  | .result _ | .status _ | .line _ => .ok ()

end Emission

namespace Router

def emit (r : Router) : Emission → Except Error Unit × Router
  | .result text => r.emitResult text
  | .status text => r.emitStatus text
  | .line text => r.emitLine text
  | .objects objects => r.emitObjects objects

/-- Gives one emission after the other to a router, also after one that failed. -/
def emitAll (r : Router) : List Emission → List (Except Error Unit) × Router
  | [] => ([], r)
  | e :: es => ((r.emit e).1 :: ((r.emit e).2.emitAll es).1, ((r.emit e).2.emitAll es).2)

/-! ## One emission -/

/-- What an emission adds to standard output. -/
def outText (r : Router) (e : Emission) : String :=
  match r.format with
  | none => e.narration r.dryRun
  | some format => e.print format r.registry

/-- What an emission adds to standard error. -/
def errText (r : Router) (e : Emission) : String :=
  match r.format with
  | none => ""
  | some _ => e.progress r.dryRun

/-- What comes of an emission where there is room for it. -/
def outcome (r : Router) (e : Emission) : Except Error Unit :=
  match r.format with
  | none => .ok ()
  | some _ => e.outcome r.registry

/-- Without a remark, a line is the text and its end. -/
theorem line_false (text : String) : line text false = text ++ "\n" := by simp [line]

/-- An emission writes its texts, as far as there is room for them. -/
theorem emit_snd (r : Router) (e : Emission) : (r.emit e).2 = { r with
    out := (r.out.writeText (r.outText e)).2, err := (r.err.writeText (r.errText e)).2 } := by
  -- On one of the streams, most emissions write nothing
  have hempty : ∀ s : Sink, (s.writeText "").2 = s := fun s => by rw [Sink.writeText_empty]
  obtain ⟨dryRun, _ | format, registry, out, err⟩ := r
  · cases e with
    | result text | status text =>
      simp only [errText, hempty]
      rfl
    | line text =>
      simp only [emit, emitLine, line_false, errText, hempty]
      rfl
    | objects shown =>
      simp only [outText, errText, Emission.narration, hempty]
      rfl
  · cases e with
    | result text =>
      simp only [outText, errText, Emission.print, Emission.progress, hempty]
      rfl
    | status text =>
      simp only [outText, Emission.print, hempty]
      rfl
    | line text =>
      simp only [emit, emitLine, line_false, outText, Emission.print, hempty]
      rfl
    | objects shown =>
      simp only [emit, emitObjects, outText, errText, Emission.print, Emission.progress, hempty]
      -- No piece is written before all documents are made
      cases shown.mapM (printed registry) with
      | error error => simp only [hempty]
      | ok documents => simp only [Sink.writePieces_eq, Sink.joined_flatMap_pieces]

/-- Room does not matter to an emission that is refused. -/
theorem emit_eq_error {r : Router} {e : Emission} {error : Error} (h : r.outcome e = .error error) :
    (r.emit e).1 = .error error := by
  obtain ⟨dryRun, _ | format, registry, out, err⟩ := r
  · cases h
  · cases e with
    | result text | status text | line text => cases h
    | objects shown =>
      simp only [outcome, Emission.outcome] at h
      simp only [emit, emitObjects]
      cases hdocuments : shown.mapM (printed registry) with
      | error error' =>
        rw [hdocuments] at h
        cases h
        rfl
      | ok documents =>
        rw [hdocuments] at h
        cases h

/-- An emission that is not refused fails only if a text of it does not fit. -/
theorem emit_eq_ok_iff {r : Router} {e : Emission} : (r.emit e).1 = .ok () ↔
    r.outcome e = .ok () ∧ r.out.Fits (r.outText e) ∧ r.err.Fits (r.errText e) := by
  have hempty : ∀ s : Sink, s.Fits "" := fun s => by rw [Sink.Fits, Sink.writeText_empty]
  -- A text is written in one go, objects in pieces
  have hwritten : ∀ {taken : Bool}, written taken = .ok () ↔ taken = true := by
    intro taken
    cases taken <;> simp [written]
  obtain ⟨dryRun, _ | format, registry, out, err⟩ := r
  · cases e with
    | result text | status text =>
      simp only [outcome, errText, hempty, and_true, true_and]
      exact hwritten
    | line text =>
      simp only [emit, emitLine, line_false, outcome, errText, hempty, and_true, true_and]
      exact hwritten
    | objects shown => simp [emit, emitObjects, outcome, outText, errText, Emission.narration, hempty]
  · cases e with
    | result text =>
      simp [emit, emitResult, outcome, Emission.outcome, outText, errText, Emission.print,
        Emission.progress, hempty]
    | status text =>
      simp only [outcome, Emission.outcome, outText, Emission.print, hempty, true_and]
      exact hwritten
    | line text =>
      simp only [emit, emitLine, line_false, outcome, Emission.outcome, outText, Emission.print,
        hempty, true_and]
      exact hwritten
    | objects shown =>
      simp only [emit, emitObjects, outcome, Emission.outcome, outText, errText, Emission.print,
        Emission.progress, hempty, and_true]
      cases shown.mapM (printed registry) with
      | error error => simp [Except.map]
      | ok documents => simp [Except.map, Sink.writePieces_eq_ok_iff, Sink.joined_flatMap_pieces]

/-- Where there is room, only what is refused fails. -/
theorem emit_fst_of_unlimited {r : Router} (hout : r.out.limit = none) (herr : r.err.limit = none)
    (e : Emission) : (r.emit e).1 = r.outcome e := by
  cases houtcome : r.outcome e with
  | error error => exact emit_eq_error houtcome
  | ok _ =>
    exact emit_eq_ok_iff.2 ⟨houtcome, Sink.fits_of_unlimited hout _, Sink.fits_of_unlimited herr _⟩

/-! ## One emission after the other -/

/-- What is added to standard output does not depend on what was added before. -/
theorem outText_emit (r : Router) (e : Emission) : (r.emit e).2.outText = r.outText := by
  rw [emit_snd]
  rfl

/-- What is added to standard error does not depend on what was added before. -/
theorem errText_emit (r : Router) (e : Emission) : (r.emit e).2.errText = r.errText := by
  rw [emit_snd]
  rfl

/-- What is refused does not depend on what was given before. -/
theorem outcome_emit (r : Router) (e : Emission) : (r.emit e).2.outcome = r.outcome := by
  rw [emit_snd]
  rfl

/-- A run of emissions writes all their texts, as far as there is room for them. -/
theorem emitAll_snd (r : Router) (es : List Emission) : (r.emitAll es).2 = { r with
    out := (r.out.writeText (String.join (es.map r.outText))).2
    err := (r.err.writeText (String.join (es.map r.errText))).2 } := by
  -- On the emissions: the rest are given to the router that the first one leaves
  induction es generalizing r with
  | nil =>
    simp only [emitAll, List.map_nil, String.join_nil, Sink.writeText_empty]
  | cons e es ih =>
    rw [emitAll, ih, outText_emit, errText_emit, emit_snd]
    simp only [List.map_cons, String.join_cons, Sink.writeText_append]

/-- Where there is room, each emission of a run comes to what it comes to alone. -/
theorem emitAll_fst_of_unlimited {r : Router} (hout : r.out.limit = none)
    (herr : r.err.limit = none) (es : List Emission) : (r.emitAll es).1 = es.map r.outcome := by
  induction es generalizing r with
  | nil => rfl
  | cons e es ih =>
    have hnext := emit_snd r e
    rw [emitAll, emit_fst_of_unlimited hout herr, ih, outcome_emit, List.map_cons]
    · rw [hnext]
      exact Sink.limit_writeText hout _
    · rw [hnext]
      exact Sink.limit_writeText herr _

/-! ## The streams of a run -/

/-- What a run of emissions comes to if text is shown: nothing fails, and every text is a line of
standard output. -/
structure Narrates (dryRun : Bool) (es : List Emission)
    (run : List (Except Error Unit) × Router) : Prop where
  results : run.1 = es.map fun _ => .ok ()
  out : run.2.out.taken = Text.bytes (String.join (es.map (Emission.narration dryRun)))
  err : run.2.err.taken = []

/-- What a run of emissions comes to if objects are printed: objects fail if one of them can not be
printed, standard output has the documents of those that do not fail, and progress is on standard
error. -/
structure Prints (format : Format) (registry : Registry) (dryRun : Bool) (es : List Emission)
    (run : List (Except Error Unit) × Router) : Prop where
  results : run.1 = es.map (Emission.outcome registry)
  out : run.2.out.taken = Text.bytes (String.join (es.map (Emission.print format registry)))
  err : run.2.err.taken = Text.bytes (String.join (es.map (Emission.progress dryRun)))

/-- A router is set up if the format of its mode is known, or none. -/
theorem ofMode_eq_ok_iff {m : Mode} {registry : Registry} {out err : Sink} {r : Router} :
    ofMode m registry out err = .ok r ↔ ∃ format, m.output.mapM Format.ofName = .ok format ∧
      r = ⟨m.dryRun, format, registry, out, err⟩ := by
  rw [ofMode, Except.bind_ok_iff]
  constructor
  · rintro ⟨format, hformat, h⟩
    cases h
    exact ⟨format, hformat, rfl⟩
  · rintro ⟨format, hformat, rfl⟩
    exact ⟨format, hformat, rfl⟩

/-- No router is set up for a format that is not known. -/
theorem ofMode_eq_error {m : Mode} {request : InvalidRequest}
    (h : m.output.mapM Format.ofName = .error request) (registry : Registry) (out err : Sink) :
    ofMode m registry out err = .error request := by
  rw [ofMode, h]
  rfl

/-- Without a format, standard output has every text in order, each on a line of its own.  With one,
it has the documents of the objects that were printed and nothing else. -/
theorem emitAll_streams {mode : Mode} {registry : Registry} {r : Router}
    (h : ofMode mode registry {} {} = .ok r) (es : List Emission) :
    (mode.output = none → Narrates mode.dryRun es (r.emitAll es)) ∧
      (∀ name, mode.output = some name → ∃ format, Format.ofName name = .ok format ∧
        Prints format registry mode.dryRun es (r.emitAll es)) ∧
      (∀ (format : Format) (document : Json), ∃ text, format.document document = text ++ "\n") ∧
      ∀ document : Json, ∃ lines : List String,
        Format.document .yaml document = String.join (("---" :: lines).map (· ++ "\n")) ∧
          ∀ line ∈ lines, '\n' ∉ line.toList ∧ line ≠ "---" := by
  obtain ⟨format, hformat, rfl⟩ := ofMode_eq_ok_iff.1 h
  have hsnd := emitAll_snd ⟨mode.dryRun, format, registry, {}, {}⟩ es
  have hfst := @emitAll_fst_of_unlimited ⟨mode.dryRun, format, registry, {}, {}⟩ rfl rfl es
  -- With room for all of it, a stream has exactly what was written to it
  have htaken : ∀ text, (({} : Sink).writeText text).2.taken = Text.bytes text := fun text => by
    rw [Sink.taken_writeText rfl, List.nil_append]
  refine ⟨fun hnone => ?_, fun name hname => ?_, Format.exists_document_eq, Format.exists_lines_yaml⟩
  · rw [hnone] at hformat
    cases hformat
    refine ⟨hfst, by rw [hsnd, htaken]; rfl, ?_⟩
    -- To standard error, nothing is written any number of times
    have hnothing : String.join (es.map fun _ => "") = "" := by
      rw [← String.toList_inj, String.toList_join]
      simp
    rw [hsnd, htaken]
    exact (congrArg Text.bytes hnothing).trans Text.bytes_empty
  · rw [hname] at hformat
    obtain ⟨f, hf, hformat⟩ := Except.bind_ok_iff.1 hformat
    cases hformat
    exact ⟨f, hf, hfst, by rw [hsnd, htaken]; rfl, by rw [hsnd, htaken]; rfl⟩

/-- Objects are printed between two lines of progress, and objects of which one states no identity
are not. -/
theorem emitAll_streams_yaml :
    let pod : Resource := ⟨none, .obj [("apiVersion", .str "v1"), ("kind", .str "Pod")]⟩
    let es : List Emission := [.status "reading", .objects [pod], .objects [pod, ⟨none, .obj []⟩],
      .line "done", .result "printed"]
    ∃ r, ofMode { dryRun := true, output := some "yaml" } {} {} {} = .ok r ∧
      Prints .yaml {} true es (r.emitAll es) ∧
      es.map (Emission.outcome {}) =
        [.ok (), .ok (), .error (.unknownType "untyped object"), .ok (), .ok ()] ∧
      es.map (Emission.print .yaml {}) = ["", "---\napiVersion: v1\nkind: Pod\n", "", "", ""] ∧
      es.map (Emission.progress true) = ["reading (dry run)\n", "", "", "done\n", ""] := by
  intro pod es
  have hmode : ofMode { dryRun := true, output := some "yaml" } {} {} {} =
      .ok ⟨true, some .yaml, {}, {}, {}⟩ := rfl
  obtain ⟨format, hformat, hprints⟩ := (emitAll_streams hmode es).2.1 "yaml" rfl
  cases hformat
  refine ⟨_, hmode, hprints, ?_, by decide +kernel, by decide⟩
  -- An object without an identity makes the second list fail
  simp only [es, pod]
  rfl

end Router

end BuilderControl
