import CodeMarkup.Text.Line

/-!
# Slices of a text

A text is cut by byte offsets, and an offset inside a character is no place to cut. So a cut or a slice
may fail: past the end of the text, in the middle of a character, or when its ends stand in the wrong
order.
-/

namespace CodeMarkup.Text

/-- The first `count` bytes of a text and the rest, if the cut falls between two characters. -/
def cutBytes : Nat → List Char → Option (List Char × List Char)
  | 0, rest => some ([], rest)
  | _ + 1, [] => none
  | count + 1, c :: rest =>
    if c.utf8Size ≤ count + 1 then
      (cutBytes (count + 1 - c.utf8Size) rest).map fun (front, back) => (c :: front, back)
    else none

/-- The stretch of a text from one byte offset to another, if both fall between two characters. -/
def slice? (text : List Char) (first last : Nat) : Option (List Char) :=
  if first ≤ last then do
    let (_, back) ← cutBytes first text
    let (front, _) ← cutBytes (last - first) back
    return front
  else none

/-- A text is cut after any of its beginnings. -/
theorem cutBytes_append (front back : List Char) :
    cutBytes (byteLength front) (front ++ back) = some (front, back) := by
  induction front with
  | nil => rw [byteLength_nil, List.nil_append, cutBytes]
  | cons c rest ih =>
    have hsize := c.utf8Size_pos
    obtain ⟨count, hcount⟩ : ∃ count, byteLength (c :: rest) = count + 1 :=
      ⟨byteLength (c :: rest) - 1, by rw [byteLength_cons]; omega⟩
    have hleft : count + 1 - c.utf8Size = byteLength rest := by
      rw [← hcount, byteLength_cons, Nat.add_sub_cancel_left]
    have hfits : c.utf8Size ≤ count + 1 := by
      rw [← hcount, byteLength_cons]
      exact Nat.le_add_right ..
    rw [hcount, List.cons_append, cutBytes, if_pos hfits, hleft, ih, Option.map_some]

/-- A stretch of a text lies between the bytes before it and the bytes up to its end. -/
theorem slice?_append (before middle after : List Char) :
    slice? (before ++ middle ++ after) (byteLength before) (byteLength (before ++ middle))
      = some middle := by
  simp [slice?, List.append_assoc, cutBytes_append]

end CodeMarkup.Text
