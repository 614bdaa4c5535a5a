/-!
# Bytes of texts

A text is written as the bytes of its characters, one character after the other.  The bytes of a
character tell where they end, and a character that comes later has greater bytes, so texts are in
the same order as their bytes.

## Key results

- `Text.bytes_append`: the bytes of two texts one after the other
- `Text.bytes_eq_flatMap`: the bytes of a text, character by character
- `Text.bytes_lt_bytes`: the bytes of texts are in the order of the texts
-/

namespace BuilderControl

/-- The bytes of a text. -/
def Text.bytes (text : String) : List UInt8 := text.toUTF8.toList

/-- Listing bytes from a position on gives all that come after it. -/
private theorem toList_loop (bytes : ByteArray) (i : Nat) (taken : List UInt8) :
    ByteArray.toList.loop bytes i taken = taken.reverse ++ bytes.data.toList.drop i := by
  fun_induction ByteArray.toList.loop bytes i taken with
  | case1 i taken hlt ih =>
    have hlt' : i < bytes.data.toList.length := by
      rw [Array.length_toList]
      exact hlt
    have hbyte : bytes.get! i = bytes.data.toList[i] := by
      rw [Array.getElem_toList]
      exact getElem!_pos bytes.data i (by simpa using hlt')
    rw [ih, List.drop_eq_getElem_cons hlt', hbyte]
    simp
  | case2 i taken hge =>
    have hdrop : bytes.data.toList.drop i = [] := by
      rw [List.drop_eq_nil_iff, Array.length_toList]
      exact Nat.le_of_not_lt hge
    rw [hdrop, List.append_nil]

/-- Listing the bytes of an array gives its items. -/
private theorem toList_eq (bytes : ByteArray) : bytes.toList = bytes.data.toList := by
  rw [ByteArray.toList, toList_loop]
  rfl

/-- The bytes of a text are those of its characters, one after the other. -/
theorem Text.bytes_eq_flatMap (text : String) :
    Text.bytes text = text.toList.flatMap String.utf8EncodeChar := by
  rw [Text.bytes, toList_eq, String.toUTF8_eq_toByteArray, ← String.utf8Encode_toList,
    List.utf8Encode, List.toList_data_toByteArray]

/-- An empty text has no bytes. -/
@[simp] theorem Text.bytes_empty : Text.bytes "" = [] := by
  rw [bytes_eq_flatMap]
  rfl

/-- The bytes of two texts come one after the other. -/
@[simp] theorem Text.bytes_append (a b : String) :
    Text.bytes (a ++ b) = Text.bytes a ++ Text.bytes b := by
  rw [bytes_eq_flatMap, bytes_eq_flatMap, bytes_eq_flatMap, String.toList_append,
    List.flatMap_append]

/-! ## The order of bytes -/

/-- Of two characters the greater one has the greater bytes, whatever follows. -/
private theorem utf8EncodeChar_append_lt {c d : Char} (h : c < d) (r s : List UInt8) :
    String.utf8EncodeChar c ++ r < String.utf8EncodeChar d ++ s := by
  have hlt : c.val.toNat < d.val.toNat := h
  have hd : d.val.toNat < 0x110000 := by
    have hvalid := d.valid
    simp only [UInt32.isValidChar, Nat.isValidChar] at hvalid
    omega
  -- The bytes are digits to base 64, each of them taken from what the one before has left
  have hdigits : ∀ n : Nat, n / 64 / 64 = n / 4096 ∧ n / 4096 / 64 = n / 262144 := by omega
  have hdigitsC := hdigits c.val.toNat
  have hdigitsD := hdigits d.val.toNat
  simp only [String.utf8EncodeChar]
  -- Either the number of bytes differs, which the first byte shows, or one of the digits
  repeat' split
  all_goals
    simp only [List.cons_append, List.nil_append, List.cons_lt_cons_iff, UInt8.lt_iff_toNat_lt,
      ← UInt8.toNat_inj, UInt8.toNat_ofNat', Nat.reducePow]
    simp (disch := omega) only [Nat.mod_eq_of_lt]
    omega

/-- The bytes of texts are in the order of the texts. -/
theorem Text.bytes_lt_bytes {a b : String} (h : a < b) : Text.bytes a < Text.bytes b := by
  have hlt : a.toList < b.toList := h
  rw [bytes_eq_flatMap, bytes_eq_flatMap]
  generalize a.toList = cs at hlt
  generalize b.toList = ds at hlt
  -- The texts are the same up to where one of them ends or has a greater character
  induction hlt with
  | nil =>
    rename_i d ds
    rw [List.flatMap_nil, List.flatMap_cons]
    cases hd : String.utf8EncodeChar d with
    | nil => exact absurd hd String.utf8EncodeChar_ne_nil
    | cons x xs => exact List.nil_lt_cons x _
  | rel hcd =>
    rw [List.flatMap_cons, List.flatMap_cons]
    exact utf8EncodeChar_append_lt hcd _ _
  | cons hcs ih =>
    rw [List.flatMap_cons, List.flatMap_cons]
    exact List.append_left_lt ih

end BuilderControl
