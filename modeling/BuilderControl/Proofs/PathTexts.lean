import BuilderControl.Path

/-!
# Texts of paths

A path is known by its text.  Quotes in a field name are escaped but backslashes are not, so where a
quote stands behind a backslash the text alone does not tell whether the name ends there.  Two
readings that part at such a quote never meet again: from there on, each quote that begins a name in
one of them ends a name in the other one, so one of them is still inside a name when the text ends.

## Key results

- `Path.chars_ne_escaped`: no text goes on both inside and outside of a quoted name
- `Path.eq_of_escaped`: where a quoted name ends is the same in all readings
- `Path.chars_inj`: a path is known by the characters of its steps
- `Path.text_eq_text_iff`: paths with the same text
-/

namespace BuilderControl

namespace Path

/-! ## Characters of a path -/

/-- The characters of the steps of a path. -/
def chars (path : Path) : List Char := path.flatMap fun step => step.text.toList

/-- A name as it stands between quotes. -/
def escaped (name : List Char) : List Char :=
  name.flatMap fun c => if c == '"' then ['\\', '"'] else [c]

/-- A name that needs no quotes. -/
def IsPlain (name : List Char) : Prop := ∀ c ∈ name, c ≠ '"' ∧ c ≠ '.' ∧ c ≠ '['

/-- Without a step, there are no characters. -/
@[simp] theorem chars_nil : chars [] = [] := rfl

/-- The characters of a step come before those of the steps after it. -/
@[simp] theorem chars_cons (step : Step) (path : Path) :
    chars (step :: path) = step.text.toList ++ chars path := rfl

/-- The text of a path with steps is made of their characters. -/
theorem toList_text {path : Path} (h : path ≠ []) : path.text.toList = chars path := by
  cases path with
  | nil => exact absurd rfl h
  | cons step path =>
    rw [text, String.toList_join, List.flatMap_map]
    · rfl
    · exact List.cons_ne_nil step path

/-- An index is written in brackets. -/
theorem toList_text_index (i : Nat) :
    (Step.index i).text.toList = '[' :: ((toString i).toList ++ [']']) := by
  simp [Step.text]

/-- Names are quoted unless they are plain. -/
theorem needsQuotes_eq_false_iff {name : String} :
    Step.needsQuotes name = false ↔ IsPlain name.toList := by
  simp [Step.needsQuotes, IsPlain, and_assoc]

/-- A plain name is written behind a dot. -/
theorem toList_text_plain {name : String} (h : IsPlain name.toList) :
    (Step.field name).text.toList = '.' :: name.toList := by
  simp [Step.text, needsQuotes_eq_false_iff.2 h]

/-- Any other name is written behind a dot and in quotes. -/
theorem toList_text_quoted {name : String} (h : ¬IsPlain name.toList) :
    (Step.field name).text.toList = '.' :: '"' :: (escaped name.toList ++ ['"']) := by
  have hquotes : Step.needsQuotes name = true := by
    rw [← Bool.not_eq_false, needsQuotes_eq_false_iff]
    exact h
  simp [Step.text, hquotes, Step.quoteName, escaped]

/-- A name is written behind a dot, quoted or not. -/
theorem exists_toList_text_field (name : String) :
    ∃ rest, (Step.field name).text.toList = '.' :: rest := by
  by_cases h : IsPlain name.toList
  · exact ⟨_, toList_text_plain h⟩
  · exact ⟨_, toList_text_quoted h⟩

/-- A step begins with a dot or a bracket. -/
theorem exists_chars_cons (step : Step) (path : Path) :
    ∃ c rest, chars (step :: path) = c :: rest ∧ (c = '.' ∨ c = '[') := by
  cases step with
  | index i => exact ⟨'[', _, by rw [chars_cons, toList_text_index]; rfl, Or.inr rfl⟩
  | field name =>
    obtain ⟨rest, hrest⟩ := exists_toList_text_field name
    exact ⟨'.', _, by rw [chars_cons, hrest]; rfl, Or.inl rfl⟩

/-- Only the empty path has no characters. -/
theorem chars_eq_nil_iff {path : Path} : chars path = [] ↔ path = [] := by
  cases path with
  | nil => simp
  | cons step path =>
    obtain ⟨c, rest, hcons, -⟩ := exists_chars_cons step path
    simp [hcons]

/-- What follows a step is nothing, or it begins another one. -/
theorem eq_of_chars_eq_cons {path : Path} {c : Char} {rest : List Char}
    (h : chars path = c :: rest) : c = '.' ∨ c = '[' := by
  cases path with
  | nil => cases h
  | cons step path =>
    obtain ⟨d, rest', hcons, hd⟩ := exists_chars_cons step path
    rw [hcons] at h
    cases h
    exact hd

/-! ## Where a part of a text ends -/

/-- A text up to the first occurrence of a character. -/
private theorem append_cons_inj {c : Char} {a b s t : List Char} (ha : c ∉ a) (hb : c ∉ b)
    (h : a ++ c :: s = b ++ c :: t) : a = b ∧ s = t := by
  induction a generalizing b with
  | nil =>
    cases b with
    | nil => exact ⟨rfl, List.tail_eq_of_cons_eq h⟩
    | cons d b => exact absurd (List.head_eq_of_cons_eq h) (fun hcd => hb (by simp [hcd]))
  | cons d a ih =>
    cases b with
    | nil => exact absurd (List.head_eq_of_cons_eq h) (fun hdc => ha (by simp [hdc]))
    | cons e b =>
      simp only [List.mem_cons, not_or] at ha hb
      simp only [List.cons_append, List.cons.injEq] at h
      obtain ⟨rfl, hrest⟩ := ih ha.2 hb.2 h.2
      exact ⟨by rw [h.1], hrest⟩

/-- Numbers are written with digits. -/
theorem isDigit_of_mem_natText {i : Nat} {c : Char} (h : c ∈ (toString i).toList) :
    c.isDigit = true := by
  rw [Nat.toString_eq_ofList_toDigits, String.toList_ofList] at h
  exact Nat.isDigit_of_mem_toDigits (by omega) (by omega) h

/-- A number is known by its digits. -/
theorem natText_inj {i j : Nat} : (toString i).toList = (toString j).toList ↔ i = j := by
  refine ⟨fun h => ?_, fun h => by rw [h]⟩
  simp only [Nat.toString_eq_ofList_toDigits, String.toList_ofList] at h
  rw [← @Nat.ofDigitChars_ten_toDigits i, h, Nat.ofDigitChars_ten_toDigits]

/-- A name without quotes ends where the next step begins. -/
theorem eq_of_isPlain {a b : List Char} (ha : IsPlain a) (hb : IsPlain b) {p q : Path}
    (h : a ++ chars p = b ++ chars q) : a = b ∧ chars p = chars q := by
  -- A plain name has no character that begins a step
  have hends : ∀ {c : Char} {name rest : List Char} (path : Path), IsPlain (c :: name) →
      chars path ≠ c :: rest := by
    intro c name rest path hplain hpath
    obtain ⟨-, hdot, hbracket⟩ := hplain c List.mem_cons_self
    exact (eq_of_chars_eq_cons hpath).elim hdot hbracket
  induction a generalizing b with
  | nil =>
    cases b with
    | nil => exact ⟨rfl, h⟩
    | cons c b => exact absurd h (hends p hb)
  | cons c a ih =>
    cases b with
    | nil => exact absurd h.symm (hends q ha)
    | cons d b =>
      simp only [List.cons_append, List.cons.injEq] at h
      obtain ⟨rfl, hrest⟩ := ih (fun e he => ha e (List.mem_cons_of_mem _ he))
        (fun e he => hb e (List.mem_cons_of_mem _ he)) h.2
      exact ⟨by rw [h.1], hrest⟩

/-- A plain name is not read as a quoted one. -/
theorem ne_quote_of_isPlain {name rest : List Char} (h : IsPlain name) (p : Path) :
    name ++ chars p ≠ '"' :: rest := by
  intro hquote
  cases name with
  | nil => cases eq_of_chars_eq_cons hquote <;> contradiction
  | cons c name => exact (h c List.mem_cons_self).1 (List.head_eq_of_cons_eq hquote)

/-! ## Quoted names -/

/-- A quote is escaped. -/
theorem escaped_quote (name : List Char) :
    escaped ('"' :: name) = '\\' :: '"' :: escaped name := rfl

/-- Any other character stands as it is. -/
theorem escaped_cons {c : Char} (h : c ≠ '"') (name : List Char) :
    escaped (c :: name) = c :: escaped name := by
  simp [escaped, h]

/-- Parts of a name are escaped one after the other. -/
theorem escaped_append (a b : List Char) : escaped (a ++ b) = escaped a ++ escaped b :=
  List.flatMap_append

/-- A name without quotes stands as it is. -/
theorem escaped_eq_self {name : List Char} (h : '"' ∉ name) : escaped name = name := by
  induction name with
  | nil => rfl
  | cons c name ih =>
    simp only [List.mem_cons, not_or] at h
    rw [escaped_cons (Ne.symm h.1), ih h.2]

/-- A quote in front of which there is a dot is not an escaped one, so the name ends there. -/
private theorem eq_of_escaped_append_dot {name u s t : List Char} (hu : '"' ∉ u)
    (h : escaped name ++ '"' :: s = u ++ '.' :: '"' :: t) : s = t := by
  have hdot : '"' ∉ u ++ ['.'] := by simpa using hu
  replace h : escaped name ++ '"' :: s = (u ++ ['.']) ++ '"' :: t := by simpa using h
  by_cases hname : '"' ∈ name
  · -- The first quote of such a name has a backslash in front of it
    obtain ⟨a, b, rfl, ha⟩ := List.eq_append_cons_of_mem hname
    rw [escaped_append, escaped_eq_self ha, escaped_quote] at h
    have hbackslash : '"' ∉ a ++ ['\\'] := by simpa using ha
    replace h : (a ++ ['\\']) ++ '"' :: (escaped b ++ '"' :: s) = (u ++ ['.']) ++ '"' :: t := by
      simpa using h
    have hlast := (List.append_inj' (append_cons_inj hbackslash hdot h).1 rfl).2
    cases hlast
  · rw [escaped_eq_self hname] at h
    exact (append_cons_inj hname hdot h).2

/-- The first quote in the text of a path begins a name. -/
private theorem exists_quoted {path : Path} (h : '"' ∈ chars path) :
    ∃ u name rest, '"' ∉ u ∧ rest.length < path.length ∧
      chars path = u ++ '.' :: '"' :: (escaped name ++ '"' :: chars rest) := by
  induction path with
  | nil => cases h
  | cons step path ih =>
    -- A step without quotes is passed over
    have hlater : '"' ∉ step.text.toList → ∃ u name rest, '"' ∉ u ∧
        rest.length < (step :: path).length ∧
        chars (step :: path) = u ++ '.' :: '"' :: (escaped name ++ '"' :: chars rest) := by
      intro hstep
      rw [chars_cons, List.mem_append] at h
      obtain ⟨u, name, rest, hu, hlt, hpath⟩ := ih (h.resolve_left hstep)
      refine ⟨step.text.toList ++ u, name, rest, ?_, Nat.lt_succ_of_lt hlt, ?_⟩
      · simp [hstep, hu]
      · rw [chars_cons, hpath, List.append_assoc]
    cases step with
    | index i =>
      refine hlater ?_
      rw [toList_text_index]
      intro hquote
      have hdigits : '"' ∈ (toString i).toList := by simpa using hquote
      cases isDigit_of_mem_natText hdigits
    | field name =>
      by_cases hplain : IsPlain name.toList
      · refine hlater ?_
        rw [toList_text_plain hplain]
        intro hquote
        have hname : '"' ∈ name.toList := by simpa using hquote
        exact (hplain _ hname).1 rfl
      · refine ⟨[], name.toList, path, List.not_mem_nil, Nat.lt_succ_self _, ?_⟩
        rw [chars_cons, toList_text_quoted hplain]
        simp

/-- No text is both what follows a name and what follows a part of a name.  The two readings change
places at each quote, and one of them never ends. -/
theorem chars_ne_escaped (p q : Path) (name : List Char) :
    chars p ≠ escaped name ++ '"' :: chars q := by
  intro h
  have hquote : '"' ∈ chars p := by simp [h]
  obtain ⟨u, name', rest, hu, hlt, hp⟩ := exists_quoted hquote
  rw [hp] at h
  exact chars_ne_escaped q rest name' (eq_of_escaped_append_dot hu h.symm)
termination_by p.length + q.length

/-- A name that ends at once is empty, as no name begins with a quote that is not escaped. -/
private theorem eq_nil_of_quote {name s t : List Char} (h : '"' :: s = escaped name ++ '"' :: t) :
    name = [] ∧ s = t := by
  cases name with
  | nil => exact ⟨rfl, List.tail_eq_of_cons_eq h⟩
  | cons c name =>
    by_cases hc : c = '"'
    · rw [hc, escaped_quote] at h
      cases List.head_eq_of_cons_eq h
    · rw [escaped_cons hc] at h
      exact absurd (List.head_eq_of_cons_eq h).symm hc

/-- A quote that is escaped in one reading does not end the name in another one. -/
private theorem escaped_quote_ne {d : Char} (hd : d ≠ '"') (a b : List Char) (p q : Path) :
    escaped ('"' :: a) ++ '"' :: chars p ≠ escaped (d :: b) ++ '"' :: chars q := by
  rw [escaped_quote, escaped_cons hd]
  intro h
  obtain ⟨rfl, hrest⟩ := eq_nil_of_quote (List.tail_eq_of_cons_eq h)
  exact chars_ne_escaped q p a hrest.symm

/-- Where a quoted name ends is the same in all readings. -/
theorem eq_of_escaped {a b : List Char} {p q : Path}
    (h : escaped a ++ '"' :: chars p = escaped b ++ '"' :: chars q) :
    a = b ∧ chars p = chars q := by
  induction a generalizing b with
  | nil =>
    obtain ⟨rfl, hrest⟩ := eq_nil_of_quote h
    exact ⟨rfl, hrest⟩
  | cons c a ih =>
    cases b with
    | nil => cases (eq_nil_of_quote h.symm).1
    | cons d b =>
      -- Both readings go on alike; they can not part at a quote
      by_cases hc : c = '"' <;> by_cases hd : d = '"'
      · subst hc hd
        rw [escaped_quote, escaped_quote] at h
        obtain ⟨rfl, hrest⟩ := ih (List.tail_eq_of_cons_eq (List.tail_eq_of_cons_eq h))
        exact ⟨rfl, hrest⟩
      · subst hc
        exact absurd h (escaped_quote_ne hd a b p q)
      · subst hd
        exact absurd h.symm (escaped_quote_ne hc b a q p)
      · rw [escaped_cons hc, escaped_cons hd, List.cons_append, List.cons_append,
          List.cons.injEq] at h
        obtain ⟨rfl, hrest⟩ := ih h.2
        exact ⟨by rw [h.1], hrest⟩

/-! ## Paths with the same text -/

/-- A field is known by the text that it begins, and so is what follows it. -/
private theorem eq_of_field {name name' : String} {p q : Path}
    (h : chars (.field name :: p) = chars (.field name' :: q)) :
    name = name' ∧ chars p = chars q := by
  rw [chars_cons, chars_cons] at h
  rw [← String.toList_inj]
  -- One of the names may be plain and the other one quoted, but then the texts part at once
  by_cases hname : IsPlain name.toList <;> by_cases hname' : IsPlain name'.toList
  · rw [toList_text_plain hname, toList_text_plain hname'] at h
    exact eq_of_isPlain hname hname' (List.tail_eq_of_cons_eq h)
  · rw [toList_text_plain hname, toList_text_quoted hname'] at h
    exact absurd (List.tail_eq_of_cons_eq h) (ne_quote_of_isPlain hname p)
  · rw [toList_text_quoted hname, toList_text_plain hname'] at h
    exact absurd (List.tail_eq_of_cons_eq h).symm (ne_quote_of_isPlain hname' q)
  · rw [toList_text_quoted hname, toList_text_quoted hname'] at h
    exact eq_of_escaped (by simpa using h)

/-- A step is known by the text that it begins, and so is what follows it. -/
private theorem eq_of_chars_cons {s t : Step} {p q : Path} (h : chars (s :: p) = chars (t :: q)) :
    s = t ∧ chars p = chars q := by
  -- An index and a field begin with different characters
  have hfirst : ∀ {i : Nat} {name : String} {p q : Path},
      chars (.index i :: p) ≠ chars (.field name :: q) := by
    intro i name p q h
    obtain ⟨rest, hrest⟩ := exists_toList_text_field name
    rw [chars_cons, chars_cons, toList_text_index, hrest] at h
    cases List.head_eq_of_cons_eq h
  cases s with
  | index i =>
    cases t with
    | index j =>
      rw [chars_cons, chars_cons, toList_text_index, toList_text_index] at h
      have hdigits : ∀ i : Nat, ']' ∉ (toString i).toList :=
        fun i hi => nomatch isDigit_of_mem_natText hi
      obtain ⟨hnumber, hrest⟩ := append_cons_inj (hdigits i) (hdigits j)
        (by simpa using List.tail_eq_of_cons_eq h)
      exact ⟨congrArg Step.index (natText_inj.1 hnumber), hrest⟩
    | field name => exact absurd h hfirst
  | field name =>
    cases t with
    | index j => exact absurd h.symm hfirst
    | field name' =>
      obtain ⟨rfl, hrest⟩ := eq_of_field h
      exact ⟨rfl, hrest⟩

/-- A path is known by its characters. -/
theorem chars_inj {p q : Path} : chars p = chars q ↔ p = q := by
  refine ⟨fun h => ?_, congrArg chars⟩
  induction p generalizing q with
  | nil => exact (chars_eq_nil_iff.1 h.symm).symm
  | cons s p ih =>
    cases q with
    | nil => exact chars_eq_nil_iff.1 h
    | cons t q =>
      obtain ⟨rfl, hrest⟩ := eq_of_chars_cons h
      rw [ih hrest]

/-- Just the empty path and the path of one empty name are written as a dot. -/
theorem text_eq_dot_iff {path : Path} : path.text = "." ↔ path = [] ∨ path = [.field ""] := by
  cases path with
  | nil => simp [text]
  | cons step path =>
    have hdot : chars [.field ""] = ".".toList := by decide
    rw [← String.toList_inj, toList_text (List.cons_ne_nil step path), ← hdot, chars_inj]
    simp

/-- Paths with the same text are equal, but for the empty path and the path of one empty name, and
just these two are written as a dot. -/
theorem text_eq_text_iff (p q : Path) :
    (p.text = q.text ↔ p = q ∨ (p = [] ∧ q = [.field ""]) ∨ (p = [.field ""] ∧ q = [])) ∧
      (p.text = "." ↔ p = [] ∨ p = [.field ""]) := by
  refine ⟨⟨fun h => ?_, ?_⟩, text_eq_dot_iff⟩
  · by_cases hp : p = []
    · subst hp
      rcases text_eq_dot_iff.1 h.symm with rfl | rfl
      · exact Or.inl rfl
      · exact Or.inr (Or.inl ⟨rfl, rfl⟩)
    · by_cases hq : q = []
      · subst hq
        exact Or.inr (Or.inr ⟨(text_eq_dot_iff.1 h).resolve_left hp, rfl⟩)
      · -- Both are written step by step
        rw [← String.toList_inj, toList_text hp, toList_text hq, chars_inj] at h
        exact Or.inl h
  · rintro (rfl | ⟨rfl, rfl⟩ | ⟨rfl, rfl⟩)
    · rfl
    · decide
    · decide

/-- The quote that ends the first name looks like an escaped one. -/
example : text [.field "a.\\", .field "b[0]"] = ".\"a.\\\".\"b[0]\"" := by decide

end Path

end BuilderControl
