import BuilderControl.Output.Format
import BuilderControl.Proofs.TextBytes

/-!
# What a sink takes

A sink that is full takes nothing more.  So it takes of several texts what it would take of the one
text that they make up, and writing pieces up to the first that does not fit leaves it as writing
all of them would.

## Key results

- `Sink.writeText_append`, `Sink.fits_append`: two texts one after the other
- `Sink.writePieces_eq`, `Sink.writePieces_eq_ok_iff`: pieces are written like the text they make up
- `Sink.taken_writeText`: an unlimited sink takes everything
-/

namespace BuilderControl

namespace Sink

/-! ## Bytes one after the other -/

/-- Bytes are taken to their end if there is room for all of them. -/
private theorem write_eq_true_iff {s : Sink} {bytes : List UInt8} :
    (s.write bytes).1 = true ↔ s.room bytes.length = bytes.length := by
  rw [write, decide_eq_true_iff]

/-- Two lists of bytes are taken like the one that they make up. -/
private theorem write_append (s : Sink) (a b : List UInt8) :
    ((s.write a).2.write b).2 = (s.write (a ++ b)).2 := by
  obtain ⟨_ | limit, taken⟩ := s
  · simp only [write, room, List.take_length, List.append_assoc]
  · simp only [write, room, List.length_append, List.length_take, List.append_assoc,
      List.take_append]
    -- Up to the limit, what is left for `b` is what `a` did not need
    congr 2
    congr 1
    · rw [List.take_eq_take_iff]
      omega
    · rw [List.take_eq_take_iff]
      omega

/-- Two lists of bytes fit if there is room for the second one after the first. -/
private theorem write_append_eq_true_iff {s : Sink} {a b : List UInt8} :
    (s.write (a ++ b)).1 = true ↔ (s.write a).1 = true ∧ ((s.write a).2.write b).1 = true := by
  rw [write_eq_true_iff, write_eq_true_iff, write_eq_true_iff]
  obtain ⟨_ | limit, taken⟩ := s
  · simp only [room, write, and_self]
  · simp only [room, write, List.length_append, List.length_take]
    omega

/-- A sink that could not take some bytes is full. -/
private theorem write_append_of_full {s : Sink} {a : List UInt8} (h : (s.write a).1 = false)
    (b : List UInt8) : (s.write (a ++ b)).2 = (s.write a).2 := by
  rw [← Bool.not_eq_true, write_eq_true_iff] at h
  obtain ⟨_ | limit, taken⟩ := s
  · exact absurd rfl h
  · simp only [room] at h
    simp only [write, room, List.length_append]
    congr 2
    rw [List.take_append_of_le_length (by omega), List.take_eq_take_iff]
    omega

/-! ## Texts one after the other -/

/-- A text is taken to its end. -/
def Fits (s : Sink) (text : String) : Prop := (s.writeText text).1 = true

instance (s : Sink) (text : String) : Decidable (s.Fits text) := inferInstanceAs (Decidable (_ = _))

/-- An empty text always fits, and changes nothing. -/
theorem writeText_empty (s : Sink) : s.writeText "" = (true, s) := by
  have hbytes : "".toUTF8.toList = [] := Text.bytes_empty
  obtain ⟨_ | limit, taken⟩ := s
  · simp only [writeText, hbytes, write, List.take_nil, List.append_nil, room]
    rfl
  · simp only [writeText, hbytes, write, List.take_nil, List.append_nil, room, List.length_nil,
      Nat.zero_min, decide_true]

/-- Two texts are taken like the one that they make up. -/
theorem writeText_append (s : Sink) (a b : String) :
    ((s.writeText a).2.writeText b).2 = (s.writeText (a ++ b)).2 := by
  have hbytes : (a ++ b).toUTF8.toList = a.toUTF8.toList ++ b.toUTF8.toList :=
    Text.bytes_append a b
  rw [writeText, writeText, writeText, hbytes, write_append]

/-- Two texts fit if there is room for the second one after the first. -/
theorem fits_append {s : Sink} {a b : String} :
    s.Fits (a ++ b) ↔ s.Fits a ∧ (s.writeText a).2.Fits b := by
  have hbytes : (a ++ b).toUTF8.toList = a.toUTF8.toList ++ b.toUTF8.toList :=
    Text.bytes_append a b
  rw [Fits, writeText, hbytes]
  exact write_append_eq_true_iff

/-- After a text that does not fit there is room for nothing. -/
theorem writeText_append_of_not_fits {s : Sink} {a : String} (h : ¬s.Fits a) (b : String) :
    (s.writeText (a ++ b)).2 = (s.writeText a).2 := by
  have hbytes : (a ++ b).toUTF8.toList = a.toUTF8.toList ++ b.toUTF8.toList :=
    Text.bytes_append a b
  rw [writeText, writeText, hbytes]
  exact write_append_of_full (Bool.eq_false_iff.2 h) _

/-! ## Pieces -/

/-- The text that pieces make up. -/
def joined (pieces : List (String × Error)) : String := String.join (pieces.map Prod.fst)

/-- No pieces make up an empty text. -/
@[simp] theorem joined_nil : joined [] = "" := rfl

/-- A piece comes before the text of those after it. -/
@[simp] theorem joined_cons (text : String) (error : Error) (pieces : List (String × Error)) :
    joined ((text, error) :: pieces) = text ++ joined pieces := String.join_cons

/-- Pieces after others make up their texts one after the other. -/
theorem joined_append (a b : List (String × Error)) : joined (a ++ b) = joined a ++ joined b := by
  rw [joined, List.map_append, String.join_append, joined, joined]

/-- The pieces of a document make up the document. -/
theorem joined_pieces (format : Format) (j : Json) :
    joined (format.pieces j) = format.document j := by
  cases format with
  | yaml =>
    -- A line break is a piece of its own where the text has none at its end
    simp only [Format.pieces, Format.document, joined_cons]
    split
    · rw [joined_nil, String.append_empty]
    · rw [joined_cons, joined_nil, String.append_empty]
  | json => simp only [Format.pieces, Format.document, joined_cons, joined_nil, String.append_empty]

/-- The pieces of several documents make up the documents one after the other. -/
theorem joined_flatMap_pieces (format : Format) (documents : List Json) :
    joined (documents.flatMap format.pieces) = String.join (documents.map format.document) := by
  induction documents with
  | nil => rfl
  | cons document documents ih =>
    rw [List.flatMap_cons, joined_append, joined_pieces, ih, List.map_cons, String.join_cons]

/-- Pieces leave a sink like the text that they make up. -/
theorem writePieces_eq (s : Sink) (pieces : List (String × Error)) :
    (s.writePieces pieces).2 = (s.writeText (joined pieces)).2 := by
  induction pieces generalizing s with
  | nil => rw [joined_nil, writeText_empty, writePieces]
  | cons piece pieces ih =>
    obtain ⟨text, error⟩ := piece
    rw [joined_cons, writePieces]
    cases hwrite : s.writeText text with
    | mk taken next =>
      -- The first piece fits, so the others are written after it; or the sink is full
      cases taken with
      | true =>
        rw [← writeText_append, hwrite]
        exact ih next
      | false =>
        have hfull : ¬s.Fits text := by
          rw [Fits, hwrite]
          exact Bool.false_ne_true
        rw [writeText_append_of_not_fits hfull, hwrite]

/-- Pieces are all written if there is room for the text that they make up. -/
theorem writePieces_eq_ok_iff {s : Sink} {pieces : List (String × Error)} :
    (s.writePieces pieces).1 = .ok () ↔ s.Fits (joined pieces) := by
  induction pieces generalizing s with
  | nil => simp [writePieces, Fits, writeText_empty]
  | cons piece pieces ih =>
    obtain ⟨text, error⟩ := piece
    rw [joined_cons, fits_append, writePieces]
    cases hwrite : s.writeText text with
    | mk taken next =>
      cases taken with
      | true => simp only [ih, Fits, hwrite, true_and]
      | false => simp only [Fits, hwrite, Bool.false_eq_true, false_and, reduceCtorEq]

/-! ## Sinks without a limit -/

section

variable {s : Sink} (h : s.limit = none)
include h

/-- Every text fits into a sink without a limit. -/
theorem fits_of_unlimited (text : String) : s.Fits text := by
  simp [Fits, writeText, write, room, h]

/-- Writing sets no limit. -/
theorem limit_writeText (text : String) : (s.writeText text).2.limit = none := h

/-- A sink without a limit takes everything. -/
theorem taken_writeText (text : String) :
    (s.writeText text).2.taken = s.taken ++ Text.bytes text := by
  simp [writeText, write, room, h, Text.bytes]

end

end Sink

end BuilderControl
