import BuilderControl.Output.Format

/-!
# Lines of a printed document

A YAML document begins with a line of three dashes, which separates it from what comes before.  No
other line of it starts with two dashes: line breaks in text are escaped, text that starts with a
dash is quoted, and the dash of a list item is followed by a blank.

## Key results

- `Yaml.unbroken_scalarText`, `Yaml.unbroken_numberText`: scalars stand on one line
- `Yaml.calm_block`: no line that a value starts begins with two dashes
- `Format.exists_lines_yaml`: the lines of a document
- `Format.exists_document_eq`: a document ends with a line break
-/

namespace BuilderControl

namespace Yaml

/-- Some text stands on one line. -/
def Unbroken (cs : List Char) : Prop := '\n' ∉ cs

instance (cs : List Char) : Decidable (Unbroken cs) := inferInstanceAs (Decidable (_ ∉ _))

/-- Two texts on one line are on one line together. -/
theorem Unbroken.append {a b : List Char} (ha : Unbroken a) (hb : Unbroken b) :
    Unbroken (a ++ b) := by
  rw [Unbroken, List.mem_append, not_or]
  exact ⟨ha, hb⟩

/-- A part of a text on one line is on one line. -/
theorem Unbroken.sublist {a b : List Char} (hb : Unbroken b) (h : a.Sublist b) : Unbroken a :=
  fun hm => hb (h.subset hm)

/-- A character that is no line break can be repeated on one line. -/
theorem Unbroken.replicate {c : Char} (h : c ≠ '\n') (n : Nat) : Unbroken (List.replicate n c) :=
  fun hm => h (List.eq_of_mem_replicate hm).symm

/-- Some text starts with another character than a dash. -/
def Undashed (cs : List Char) : Prop := ∃ c rest, cs = c :: rest ∧ c ≠ '-'

/-- The first character stays in front. -/
theorem Undashed.append {a : List Char} (h : Undashed a) (b : List Char) : Undashed (a ++ b) := by
  obtain ⟨c, rest, rfl, hc⟩ := h
  exact ⟨c, rest ++ b, rfl, hc⟩

/-- Some text does not start with two dashes. -/
def Unruled (cs : List Char) : Prop := ¬['-', '-'] <+: cs

instance (cs : List Char) : Decidable (Unruled cs) := inferInstanceAs (Decidable (¬_ <+: _))

/-- A beginning of a text has at most the dashes that the text starts with. -/
theorem Unruled.mono {a b : List Char} (hb : Unruled b) (h : a <+: b) : Unruled a :=
  fun hdash => hb (hdash.trans h)

/-- One character that is no dash is enough. -/
theorem Undashed.unruled {cs : List Char} (h : Undashed cs) : Unruled cs := by
  obtain ⟨c, rest, rfl, hc⟩ := h
  rw [Unruled, List.cons_prefix_cons]
  exact fun hdash => hc hdash.1.symm

/-- A dash in front is one dash only. -/
theorem Undashed.unruled_cons {cs : List Char} (h : Undashed cs) : Unruled ('-' :: cs) := by
  obtain ⟨c, rest, rfl, hc⟩ := h
  rw [Unruled, List.cons_prefix_cons, List.cons_prefix_cons]
  exact fun hdash => hc hdash.2.1.symm

/-! ## Numbers -/

/-- The digits of a number stand on one line. -/
theorem unbroken_natText (n : Nat) : Unbroken (toString n).toList := by
  rw [Nat.toString_eq_ofList_toDigits, String.toList_ofList]
  intro hm
  cases Nat.isDigit_of_mem_toDigits (by omega) (by omega) hm

/-- A natural number starts with a digit. -/
theorem undashed_natText (n : Nat) : Undashed (toString n).toList := by
  rw [Nat.toString_eq_ofList_toDigits, String.toList_ofList]
  cases h : Nat.toDigits 10 n with
  | nil => exact absurd h Nat.toDigits_ne_nil
  | cons c cs =>
    refine ⟨c, cs, rfl, ?_⟩
    rintro rfl
    have hm : '-' ∈ Nat.toDigits 10 n := h ▸ List.mem_cons_self
    cases Nat.isDigit_of_mem_toDigits (by omega) (by omega) hm

/-- An integer stands on one line. -/
theorem unbroken_intText (i : Int) : Unbroken (toString i).toList := by
  rw [Int.toString_eq_repr, Int.repr_eq_if]
  split
  · exact unbroken_natText _
  · rw [String.toList_append]
    exact Unbroken.append (by decide) (unbroken_natText _)

/-- An integer has one dash in front at most. -/
theorem unruled_intText (i : Int) : Unruled (toString i).toList := by
  rw [Int.toString_eq_repr, Int.repr_eq_if]
  split
  · exact (undashed_natText _).unruled
  · rw [String.toList_append]
    exact (undashed_natText _).unruled_cons

section

open Binary64

variable {digits : String} (hu : Unbroken digits.toList)
include hu

/-- A number in positional notation stands on one line if its digits do. -/
theorem unbroken_positional (point : Int) : Unbroken (positional digits point).toList := by
  have hzeros : ∀ n, Unbroken (List.replicate n '0') := Unbroken.replicate (by decide)
  simp only [positional]
  -- The point stands before the digits, behind them or among them
  split
  · simp only [String.toList_append, String.toList_ofList]
    exact (Unbroken.append (by decide) (hzeros _)).append hu
  · split
    · simp only [String.toList_append, String.toList_ofList]
      exact (hu.append (hzeros _)).append (by decide)
    · simp only [String.toList_append, String.toList_ofList]
      exact ((hu.sublist (List.take_sublist _ _)).append (by decide)).append
        (hu.sublist (List.drop_sublist _ _))

/-- A number in scientific notation stands on one line if its digits do. -/
theorem unbroken_scientific (point : Int) :
    Unbroken (scientific numberLayout digits point).toList := by
  have htail := hu.sublist (List.drop_sublist 1 digits.toList)
  simp only [scientific, String.toList_append, String.toList_ofList]
  refine (((hu.sublist (List.take_sublist _ _)).append ?_).append (by decide)).append ?_
  · split
    · decide
    · rw [String.toList_append]
      exact Unbroken.append (by decide) (String.toList_ofList.symm ▸ htail)
  · split
    · exact unbroken_intText _
    · rw [String.toList_append]
      exact Unbroken.append (by decide) (unbroken_intText _)

end

section

open Binary64

variable {digits : String} (hd : Undashed digits.toList)
include hd

/-- In positional notation, a number starts with a digit. -/
theorem undashed_positional (point : Int) : Undashed (positional digits point).toList := by
  simp only [positional]
  split
  · simp only [String.toList_append, List.append_assoc]
    exact ⟨'0', _, rfl, by decide⟩
  · split
    · simp only [String.toList_append]
      exact (hd.append _).append _
    · simp only [String.toList_append, String.toList_ofList]
      refine Undashed.append (Undashed.append ?_ _) _
      -- The point stands behind the first digit at least
      obtain ⟨c, rest, hdigits, hc⟩ := hd
      cases hcount : point.toNat with
      | zero => omega
      | succ n => exact ⟨c, rest.take n, by rw [hdigits, List.take_succ_cons], hc⟩

/-- In scientific notation, a number starts with a digit. -/
theorem undashed_scientific (layout : Layout) (point : Int) :
    Undashed (scientific layout digits point).toList := by
  obtain ⟨c, rest, hdigits, hc⟩ := hd
  simp only [scientific, String.toList_append, String.toList_ofList]
  refine Undashed.append (Undashed.append (Undashed.append ⟨c, [], ?_, hc⟩ _) _) _
  rw [hdigits]
  rfl

end

/-- A number with a fraction stands on one line, with one dash in front at most. -/
theorem unbroken_unruled_render (bits : UInt64) :
    Unbroken (Binary64.render numberLayout bits).toList ∧
      Unruled (Binary64.render numberLayout bits).toList := by
  -- A sign in front of digits is the only dash
  have hsigned : ∀ text : String, Unbroken text.toList ∧ Undashed text.toList →
      Unbroken (if Binary64.isNegative bits = true then "-" ++ text else text).toList ∧
        Unruled (if Binary64.isNegative bits = true then "-" ++ text else text).toList := by
    intro text h
    split
    · rw [String.toList_append]
      exact ⟨Unbroken.append (by decide) h.1, h.2.unruled_cons⟩
    · exact ⟨h.1, h.2.unruled⟩
  have hu := unbroken_natText (Binary64.shortest bits).digits
  have hd := undashed_natText (Binary64.shortest bits).digits
  simp only [Binary64.render]
  refine hsigned _ ?_
  split
  · exact ⟨by decide, '0', _, rfl, by decide⟩
  · split
    · exact ⟨unbroken_positional hu _, undashed_positional hd _⟩
    · exact ⟨unbroken_scientific hu _, undashed_scientific hd _ _⟩

/-- Every number stands on one line. -/
theorem unbroken_numberText : ∀ n : Number, Unbroken (numberText n).toList
  | .int i => unbroken_intText i
  | .float bits => (unbroken_unruled_render bits).1

/-- No number starts with two dashes. -/
theorem unruled_numberText : ∀ n : Number, Unruled (numberText n).toList
  | .int i => unruled_intText i
  | .float bits => (unbroken_unruled_render bits).2

/-! ## Scalars -/

/-- An escaped character is no line break. -/
theorem unbroken_escape (c : Char) : Unbroken (escape c).toList := by
  rw [escape]
  split
  · decide
  · rw [Json.escape.eq_def]
    split
    case h_8 hline _ _ _ _ =>
      -- A character that stands for itself is no line break
      split
      · rename_i hlow
        have hhex : ∀ n < 32, Unbroken (Json.hex4 n).toList := by decide
        rw [String.toList_append]
        exact Unbroken.append (by decide) (hhex _ hlow)
      · rw [Char.toString_eq_singleton, String.toList_singleton, Unbroken, List.mem_singleton]
        exact fun h => hline h.symm
    all_goals decide

/-- Escaped text stands on one line. -/
theorem unbroken_foldl_escape (cs : List Char) {text : String} (h : Unbroken text.toList) :
    Unbroken (cs.foldl (fun out c => out ++ escape c) text).toList := by
  induction cs generalizing text with
  | nil => exact h
  | cons c cs ih =>
    refine ih ?_
    rw [String.toList_append]
    exact h.append (unbroken_escape c)

/-- Text that needs no quotes has no special characters and does not start with an indicator. -/
theorem of_needsQuotes_eq_false {s : String} (h : needsQuotes s = false) :
    ∃ c cs, s.toList = c :: cs ∧ c ∉ indicators ∧ ∀ d ∈ c :: cs, isSpecial d = false := by
  simp only [needsQuotes, Bool.or_eq_false_iff] at h
  obtain ⟨⟨⟨⟨⟨⟨⟨hempty, hhead⟩, -⟩, hspecial⟩, -⟩, -⟩, -⟩, -⟩ := h
  cases hs : s.toList with
  | nil => simp [hs] at hempty
  | cons c cs =>
    rw [hs] at hhead hspecial
    refine ⟨c, cs, rfl, by simpa using hhead, fun d hd => ?_⟩
    simpa using List.any_eq_false.1 hspecial d hd

/-- Quoted text has its line breaks escaped, and plain text has none. -/
theorem unbroken_scalarText (s : String) : Unbroken (scalarText s).toList := by
  rw [scalarText]
  split
  · rw [String.toList_append, String.toList_append, String.foldl_eq_foldl_toList]
    exact (Unbroken.append (by decide) (unbroken_foldl_escape _ (by decide))).append (by decide)
  · rename_i hplain
    obtain ⟨c, cs, hs, -, hspecial⟩ := of_needsQuotes_eq_false (Bool.eq_false_iff.2 hplain)
    rw [hs]
    intro hm
    exact absurd (hspecial _ hm) (by decide)

/-- Text is quoted if it starts with a dash. -/
theorem undashed_scalarText (s : String) : Undashed (scalarText s).toList := by
  rw [scalarText]
  split
  · rw [String.toList_append, String.toList_append]
    exact Undashed.append ⟨'"', _, rfl, by decide⟩ _
  · rename_i hplain
    obtain ⟨c, cs, hs, hc, -⟩ := of_needsQuotes_eq_false (Bool.eq_false_iff.2 hplain)
    refine ⟨c, cs, hs, ?_⟩
    -- A dash is one of the indicators that make text be quoted
    rintro rfl
    exact hc (by decide)

/-! ## Containers -/

/-- No line but perhaps the first starts with two dashes. -/
def Calm : List Char → Prop
  | [] => True
  | c :: cs => (c = '\n' → Unruled cs) ∧ Calm cs

/-- What stands on one line has no line to begin. -/
theorem Unbroken.calm_append {a : List Char} (h : Unbroken a) (b : List Char) :
    Calm (a ++ b) ↔ Calm b := by
  induction a with
  | nil => rfl
  | cons c a ih =>
    rw [Unbroken, List.mem_cons, not_or] at h
    rw [List.cons_append, Calm, ih h.2, and_iff_right]
    exact fun hc => absurd hc.symm h.1

/-- A beginning of calm text is calm. -/
theorem Calm.of_append {a b : List Char} (h : Calm (a ++ b)) : Calm a := by
  induction a with
  | nil => trivial
  | cons c a ih => exact ⟨fun hc => (h.1 hc).mono (List.prefix_append a b), ih h.2⟩

/-- A new line is calm if it is indented, or if what follows does not start with two dashes. -/
theorem calm_newline_append {level : Nat} {cs : List Char} (h : level = 0 → Unruled cs) :
    Calm ((newline level).toList ++ cs) ↔ Calm cs := by
  have hblanks : Unbroken (List.replicate (2 * level) ' ') := Unbroken.replicate (by decide) _
  have hline : Unruled (List.replicate (2 * level) ' ' ++ cs) := by
    -- Only at the outermost level does the line begin with what follows
    cases level with
    | zero => exact h rfl
    | succ n => exact Undashed.unruled ⟨' ', List.replicate (2 * n + 1) ' ' ++ cs, rfl, by decide⟩
  have hnewline : (newline level).toList = '\n' :: List.replicate (2 * level) ' ' := by
    simp only [newline, String.toList_append, String.toList_ofList]
    rfl
  rw [hnewline, List.cons_append, Calm, hblanks.calm_append, and_iff_right]
  exact fun _ => hline

mutual
/-- A value does not change whether what follows it is calm. -/
theorem calm_block (level : Nat) (rest : List Char) :
    ∀ j : Json, Calm ((block level j).toList ++ rest) ↔ Calm rest
  | .null => Unbroken.calm_append (a := "~".toList) (by decide) rest
  | .bool true => Unbroken.calm_append (a := "true".toList) (by decide) rest
  | .bool false => Unbroken.calm_append (a := "false".toList) (by decide) rest
  | .num n => (unbroken_numberText n).calm_append rest
  | .str s => (unbroken_scalarText s).calm_append rest
  | .arr [] => Unbroken.calm_append (a := "[]".toList) (by decide) rest
  | .arr (x :: xs) => calm_items level true rest (x :: xs)
  | .obj [] => Unbroken.calm_append (a := "\x7b\x7d".toList) (by decide) rest
  | .obj (m :: ms) => calm_members level true rest (m :: ms)
termination_by structural j => j
/-- Nor do the items of a list. -/
theorem calm_items (level : Nat) (first : Bool) (rest : List Char) :
    ∀ xs : List Json, Calm ((items level first xs).toList ++ rest) ↔ Calm rest
  | [] => Iff.rfl
  | x :: xs => by
    have hdash : ∀ cs, Unruled ("- ".toList ++ cs) := fun cs =>
      Undashed.unruled_cons ⟨' ', cs, rfl, by decide⟩
    have hitem : Calm ("- ".toList ++ ((block (level + 1) x).toList ++
        ((items level false xs).toList ++ rest))) ↔ Calm rest := by
      rw [Unbroken.calm_append (by decide), calm_block (level + 1) _ x, calm_items level false rest xs]
    simp only [items, String.toList_append, List.append_assoc]
    cases first with
    | true => exact hitem
    | false => exact (calm_newline_append fun _ => hdash _).trans hitem
termination_by structural xs => xs
/-- Nor do the members of an object. -/
theorem calm_members (level : Nat) (first : Bool) (rest : List Char) :
    ∀ ms : List (String × Json), Calm ((members level first ms).toList ++ rest) ↔ Calm rest
  | [] => Iff.rfl
  | (k, v) :: ms => by
    have hvalue : Calm ((block (level + 1) v).toList ++ ((members level false ms).toList ++ rest)) ↔
        Calm rest := by
      rw [calm_block (level + 1) _ v, calm_members level false rest ms]
    have hmember : Calm ((scalarText k).toList ++ (":".toList ++ ((match v with
        | .arr (_ :: _) | .obj (_ :: _) => newline (level + 1)
        | _ => " ").toList ++ ((block (level + 1) v).toList ++
          ((members level false ms).toList ++ rest))))) ↔ Calm rest := by
      rw [(unbroken_scalarText k).calm_append, Unbroken.calm_append (by decide)]
      -- A container with content starts on a line of its own, which is indented
      split
      · exact (calm_newline_append (by simp)).trans hvalue
      · exact (calm_newline_append (by simp)).trans hvalue
      · exact (Unbroken.calm_append (by decide) _).trans hvalue
    simp only [members, String.toList_append, List.append_assoc]
    cases first with
    | true => exact hmember
    | false =>
      exact (calm_newline_append fun _ => ((undashed_scalarText k).append _).unruled).trans hmember
termination_by structural ms => ms
end

/-- The first line of a document does not start with two dashes either. -/
theorem unruled_text (j : Json) : Unruled (text j).toList := by
  -- A list starts with a dash and a blank, all other documents with another character
  cases j with
  | null => decide
  | bool b => cases b <;> decide
  | num n => exact unruled_numberText n
  | str s => exact (undashed_scalarText s).unruled
  | arr xs =>
    cases xs with
    | nil => decide
    | cons x xs =>
      simp only [text, block, items, String.toList_append, List.append_assoc]
      exact Undashed.unruled_cons ⟨' ', _, rfl, by decide⟩
  | obj ms =>
    cases ms with
    | nil => decide
    | cons m ms =>
      simp only [text, block, members, String.toList_append, List.append_assoc]
      exact ((undashed_scalarText m.1).append _).unruled

/-- No line of a document but perhaps its first starts with two dashes. -/
theorem calm_text (j : Json) : Calm (text j).toList := by
  have hcalm := (calm_block 0 [] j).2 trivial
  rwa [List.append_nil] at hcalm

end Yaml

/-! ## Documents -/

namespace Format

open Yaml

/-- The lines of a text. -/
private theorem exists_lines (cs : List Char) : ∃ (first : List Char) (others : List (List Char)),
    cs ++ ['\n'] = (first :: others).flatMap (· ++ ['\n']) ∧ first <+: cs ∧ Unbroken first ∧
      (Calm cs → ∀ line ∈ others, Unbroken line ∧ Unruled line) := by
  -- On the characters: each stands in front of the first line, or breaks it off
  induction cs with
  | nil => exact ⟨[], [], rfl, List.prefix_rfl, by decide, by simp⟩
  | cons c cs ih =>
    obtain ⟨first, others, hcs, hstart, hunbroken, hothers⟩ := ih
    by_cases hc : c = '\n'
    · -- The line breaks off, and what was the first line is one of the others
      subst hc
      refine ⟨[], first :: others, by rw [List.cons_append, hcs]; rfl, List.nil_prefix, by decide,
        fun hcalm line hline => ?_⟩
      obtain ⟨hnext, hcalm⟩ := hcalm
      rw [List.mem_cons] at hline
      rcases hline with rfl | hline
      · exact ⟨hunbroken, (hnext rfl).mono hstart⟩
      · exact hothers hcalm line hline
    · refine ⟨c :: first, others, by rw [List.cons_append, hcs]; rfl,
        List.cons_prefix_cons.2 ⟨rfl, hstart⟩, ?_, fun hcalm => hothers hcalm.2⟩
      rw [Unbroken, List.mem_cons, not_or]
      exact ⟨fun h => hc h.symm, hunbroken⟩

/-- The text of a document, without the line break at its end. -/
private theorem exists_document_yaml_eq (j : Json) : ∃ body : String,
    document .yaml j = "---\n" ++ (body ++ "\n") ∧ Calm body.toList ∧ Unruled body.toList := by
  -- The line break at the end is written by the document or by its text
  cases hend : (Yaml.text j).endsWith "\n" with
  | false =>
    refine ⟨Yaml.text j, ?_, calm_text j, unruled_text j⟩
    simp [document, hend]
  | true =>
    -- The text ends with a line break itself
    have hdocument : document .yaml j = "---\n" ++ Yaml.text j := by simp [document, hend]
    rw [String.endsWith_eq_endsWith_toSlice, String.Slice.endsWith_string_iff,
      String.copy_toSlice] at hend
    obtain ⟨cs, hcs⟩ := hend
    have htext : Yaml.text j = String.ofList cs ++ "\n" := by
      rw [← String.toList_inj, String.toList_append, String.toList_ofList (l := cs), hcs]
    have hcalm := calm_text j
    rw [← hcs] at hcalm
    refine ⟨String.ofList cs, by rw [hdocument, htext], ?_, ?_⟩
    · rw [String.toList_ofList]
      exact hcalm.of_append
    · rw [String.toList_ofList]
      exact (unruled_text j).mono (hcs ▸ List.prefix_append _ _)

/-- A YAML document is a line of three dashes, and then lines that are not. -/
theorem exists_lines_yaml (j : Json) : ∃ lines : List String,
    document .yaml j = String.join (("---" :: lines).map (· ++ "\n")) ∧
      ∀ line ∈ lines, '\n' ∉ line.toList ∧ line ≠ "---" := by
  obtain ⟨body, hdocument, hcalm, hunruled⟩ := exists_document_yaml_eq j
  obtain ⟨first, others, hlines, hstart, hunbroken, hothers⟩ := exists_lines body.toList
  -- The first line starts where the body does, and each other line behind a line break of it.
  have hall : ∀ line ∈ first :: others, Unbroken line ∧ Unruled line := by
    intro line hline
    rcases List.mem_cons.1 hline with rfl | hline
    · exact ⟨hunbroken, hunruled.mono hstart⟩
    · exact hothers hcalm line hline
  refine ⟨(first :: others).map String.ofList, ?_, fun line hline => ?_⟩
  · have hbody : body ++ "\n" =
        String.join (((first :: others).map String.ofList).map (· ++ "\n")) := by
      rw [← String.toList_inj, String.toList_append]
      refine hlines.trans ?_
      simp [String.toList_join, List.flatMap_map]
    rw [hdocument, hbody]
    exact String.join_cons.symm
  · obtain ⟨cs, hcs, rfl⟩ := List.mem_map.1 hline
    obtain ⟨hu, hr⟩ := hall cs hcs
    rw [String.toList_ofList]
    refine ⟨hu, fun h => hr ?_⟩
    rw [← String.toList_ofList (l := cs), h]
    decide

/-- In every format, a document ends with a line break. -/
theorem exists_document_eq (f : Format) (j : Json) : ∃ body, f.document j = body ++ "\n" := by
  cases f with
  | yaml =>
    obtain ⟨body, hdocument, -, -⟩ := exists_document_yaml_eq j
    exact ⟨"---\n" ++ body, by rw [hdocument, String.append_assoc]⟩
  | json => exact ⟨j.pretty, by simp [document]⟩

end Format

end BuilderControl
