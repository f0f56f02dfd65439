/-!
# Fields of a list

A text cut at a separator. The fields keep their blanks, an empty text has one empty field, and
the fields of two texts joined by the separator are the fields of the one and then of the other.
-/

namespace Chip8.Text

/-- The pieces between the occurrences of `sep`, in order. -/
def fields (sep : Char) : List Char → List (List Char)
  | [] => [[]]
  | c :: cs =>
    if c = sep then [] :: fields sep cs
    else match fields sep cs with
      | [] => [[c]]
      | f :: fs => (c :: f) :: fs

/-- There is always at least one field. -/
theorem fields_ne_nil (sep : Char) (cs : List Char) : fields sep cs ≠ [] := by
  cases cs with
  | nil => simp [fields]
  | cons c cs =>
    unfold fields
    split
    · simp
    · split <;> simp

/-- Joining two texts with the separator joins their fields. -/
theorem fields_append_sep (sep : Char) (a b : List Char) :
    fields sep (a ++ sep :: b) = fields sep a ++ fields sep b := by
  induction a with
  | nil => simp [fields]
  | cons c a ih =>
    by_cases h : c = sep
    · simp [fields, h, ih]
    · simp only [List.cons_append, fields, h, if_false, ih]
      cases hf : fields sep a with
      | nil => exact absurd hf (fields_ne_nil sep a)
      | cons f fs => rfl

end Chip8.Text
