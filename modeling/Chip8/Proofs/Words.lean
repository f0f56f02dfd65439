import Chip8.Text.Blank
import Chip8.Text.Fields
import Chip8.Text.LowerCase
import Mathlib.Data.List.DropRight
import Mathlib.Tactic.Lemma
/-!
# Words in a text

`Text.Surrounds` says what it is for a text to be another one with blanks around it, and
`Text.Writes` that a text is a word but for such blanks and for capital letters. Lower-case forms
are those of all letters there are. But a word of plain characters can be written with the letters
of ASCII only (`lowerChars_eq_iff`): of all capital letters beyond ASCII only the Kelvin sign has a
small letter within it. So a reader that trims a text and then goes by its lower-case form finds
exactly what `Writes` says (`lowerChars_trimChars_eq_iff`). `Text.IsField` says where the fields of
a list lie in it (`mem_fields_iff`).
-/

namespace Chip8.Text

variable {text core : List Char} {word : String} {c d : Char}

/-- Whether a text is another one with blanks around it. -/
def Surrounds (text core : List Char) : Prop :=
  ∃ before behind, text = before ++ core ++ behind ∧ (∀ c ∈ before, isBlank c) ∧
    ∀ c ∈ behind, isBlank c

/-- Whether a text is a word, in small or capital letters, with blanks around it. -/
def Writes (text : List Char) (word : String) : Prop :=
  ∃ core, Surrounds text core ∧ core.map Char.toLower = word.toList

/-- What is left after trimming has had nothing but blanks around it. -/
lemma surrounds_trimChars (text : List Char) : Surrounds text (trimChars text) := by
  refine ⟨text.takeWhile isBlank, (text.dropWhile isBlank).rtakeWhile isBlank, ?_,
    fun c member => List.mem_takeWhile_imp member, fun c member => List.mem_rtakeWhile_imp member⟩
  have right : trimChars text ++ (text.dropWhile isBlank).rtakeWhile isBlank =
      text.dropWhile isBlank := List.rdropWhile_append_rtakeWhile
  rw [List.append_assoc, right, List.takeWhile_append_dropWhile]

/-- Nothing is dropped from a text that does not start with a blank. -/
lemma dropWhile_of_head (first : ∀ c ∈ text.head?, isBlank c = false) :
    text.dropWhile isBlank = text := by
  cases text with
  | nil => rfl
  | cons c rest => exact List.dropWhile_cons_of_neg (by rw [first c rfl]; decide)

/-- Trimming takes away the blanks around a text that has none inside. -/
lemma trimChars_of_surrounds (h : Surrounds text core) (solid : ∀ c ∈ core, isBlank c = false) :
    trimChars text = core := by
  obtain ⟨before, behind, rfl, first, last⟩ := h
  have front : (before ++ core ++ behind).dropWhile isBlank =
      (core ++ behind).dropWhile isBlank := by
    rw [List.append_assoc, List.dropWhile_append_of_pos first]
  have blanks : ∀ c ∈ behind.reverse, isBlank c :=
    fun c member => last c (List.mem_reverse.1 member)
  have turned : core.reverse.dropWhile isBlank = core.reverse := dropWhile_of_head fun c member =>
    solid c (List.mem_reverse.1 (List.mem_of_mem_head? member))
  rw [trimChars, front]
  cases core with
  | nil =>
    rw [List.nil_append, List.dropWhile_eq_nil_iff.2 last]
    rfl
  | cons c rest =>
    have first : ∀ d ∈ (c :: rest ++ behind).head?, isBlank d = false := by
      rintro d ⟨⟩
      exact solid c List.mem_cons_self
    rw [dropWhile_of_head first, List.reverse_append, List.dropWhile_append_of_pos blanks, turned,
      List.reverse_reverse]

/-- A visible character of ASCII other than the letter k, which is also the small letter of the
Kelvin sign. -/
def IsPlain (c : Char) : Prop := 0 < c.toNat ∧ c.toNat < 128 ∧ c ≠ 'k' ∧ isBlank c = false

/-- It can be decided whether a character is plain. -/
instance : DecidablePred IsPlain := fun c => inferInstanceAs (Decidable
  (0 < c.toNat ∧ c.toNat < 128 ∧ c ≠ 'k' ∧ isBlank c = false))

/-- What is checked for all characters of a word holds of each of them. -/
lemma forall_isPlain (h : word.toList.all fun d => decide (IsPlain d)) :
    ∀ d ∈ word.toList, IsPlain d := by
  simpa using h

/-- No small letter of a capital letter beyond ASCII is in ASCII, but for the letter k. -/
lemma offset_of_mem_lowerRuns {first last stride : Nat} {offset : Int}
    (member : (first, last, stride, offset) ∈ lowerRuns) :
    128 ≤ (first : Int) + offset ∨ first = last ∧ (first : Int) + offset = 'k'.toNat := by
  have all : ∀ r ∈ lowerRuns, 128 ≤ (r.1 : Int) + r.2.2.2 ∨
      r.1 = r.2.1 ∧ (r.1 : Int) + r.2.2.2 = 'k'.toNat := by
    decide +kernel
  exact all _ member

/-- A number that is none of a character stands for the character of number zero. -/
lemma toNat_ofNat_of_pos {n : Nat} (h : 0 < (Char.ofNat n).toNat) : (Char.ofNat n).toNat = n := by
  by_cases valid : n.isValidChar
  · rw [Char.ofNat, dif_pos valid]
    rfl
  · rw [Char.ofNat, dif_neg valid] at h
    exact absurd h (by decide)

/-- Only capitals have another form in lower case. -/
lemma toLower_of_not_capital (h : c.toNat < 65 ∨ 90 < c.toNat) : c.toLower = c := by
  refine dif_neg (c := c.val ≥ 65 ∧ c.val ≤ 90) ?_
  rintro ⟨first, last⟩
  have first : 65 ≤ c.toNat := first
  have last : c.toNat ≤ 90 := last
  omega

/-- Characters beyond the first 128 are none of the capitals. -/
lemma toLower_of_not_ascii (h : 128 ≤ c.toNat) : c.toLower = c :=
  toLower_of_not_capital (by omega)

/-- A blank is its own form in lower case. -/
lemma toLower_of_isBlank (h : isBlank c = true) : c.toLower = c := by
  simp only [isBlank, Bool.or_eq_true, Bool.and_eq_true, decide_eq_true_eq] at h
  exact toLower_of_not_capital (by omega)

/-- Beyond ASCII no character has a plain lower-case form. -/
lemma lowerChar_ne_of_not_ascii (h : 128 ≤ c.toNat) (plain : IsPlain d) : lowerChar c ≠ d := by
  obtain ⟨some_, ascii, other, -⟩ := plain
  intro equal
  rw [lowerChar, if_neg (Nat.not_lt.2 h)] at equal
  split at equal
  case h_1 first last stride offset found =>
    have inside := List.find?_some found
    simp only [Bool.and_eq_true, decide_eq_true_eq] at inside
    obtain ⟨⟨low, high⟩, -⟩ := inside
    have value : d.toNat = (c.toNat + offset).toNat := by
      rw [← equal] at some_ ⊢
      exact toNat_ofNat_of_pos some_
    obtain beyond | ⟨only, kelvin⟩ := offset_of_mem_lowerRuns (List.mem_of_find?_eq_some found)
    · omega
    · have letter : d.toNat = 'k'.toNat := by omega
      exact other (Char.toNat_inj.1 letter)
  case h_2 =>
    subst equal
    omega

/-- A character becomes a plain one exactly if that is its form in lower case. -/
lemma lowerChar_eq_iff (plain : IsPlain d) : lowerChar c = d ↔ c.toLower = d := by
  by_cases ascii : c.toNat < 128
  · rw [lowerChar, if_pos ascii]
  · have beyond : 128 ≤ c.toNat := Nat.not_lt.1 ascii
    constructor
    · exact fun equal => absurd equal (lowerChar_ne_of_not_ascii beyond plain)
    · intro equal
      rw [toLower_of_not_ascii beyond] at equal
      subst equal
      exact absurd plain.2.1 ascii

/-- Characters become plain ones exactly if these are their forms in lower case. -/
lemma lowerAfter_eq_iff {before cs ds : List Char} (plain : ∀ d ∈ ds, IsPlain d) :
    lowerAfter before cs = ds ↔ cs.map Char.toLower = ds := by
  induction cs generalizing before ds with
  | nil => rfl
  | cons c rest ih =>
    have strange (beyond : 128 ≤ c.toNat) : (c :: rest).map Char.toLower ≠ ds := by
      rintro rfl
      have first := (plain _ List.mem_cons_self).2.1
      rw [toLower_of_not_ascii beyond] at first
      omega
    have mark {e : Char} (beyond : 128 ≤ e.toNat) : e ∉ ds := fun member => by
      have ascii := (plain e member).2.1
      omega
    rw [lowerAfter]
    by_cases dotted : c.toNat = 0x130
    · refine iff_of_false (fun equal => mark (e := Char.ofNat 0x307) (by decide) ?_)
        (strange (by omega))
      rw [← equal, if_pos dotted]
      exact List.mem_cons_of_mem _ List.mem_cons_self
    by_cases sigma : c.toNat = 0x3A3
    · refine iff_of_false (fun equal => ?_) (strange (by omega))
      rw [if_neg dotted, if_pos sigma] at equal
      split at equal
      · exact mark (e := Char.ofNat 0x3C2) (by decide) (equal ▸ List.mem_cons_self)
      · exact mark (e := Char.ofNat 0x3C3) (by decide) (equal ▸ List.mem_cons_self)
    rw [if_neg dotted, if_neg sigma, List.singleton_append, List.map_cons]
    cases ds with
    | nil => exact iff_of_false (List.cons_ne_nil _ _) (List.cons_ne_nil _ _)
    | cons d ds =>
      obtain ⟨first, others⟩ := List.forall_mem_cons.1 plain
      rw [List.cons.injEq, List.cons.injEq, lowerChar_eq_iff first, ih others]

/-- A text has a plain lower-case form exactly if it is that form but for letters of ASCII. -/
lemma lowerChars_eq_iff {cs ds : List Char} (plain : ∀ d ∈ ds, IsPlain d) :
    lowerChars cs = ds ↔ cs.map Char.toLower = ds :=
  lowerAfter_eq_iff plain

/-- A text is trimmed and brought into lower case to find out which plain word it writes. -/
lemma lowerChars_trimChars_eq_iff (plain : ∀ d ∈ word.toList, IsPlain d) :
    lowerChars (trimChars text) = word.toList ↔ Writes text word := by
  rw [lowerChars_eq_iff plain]
  constructor
  · exact fun equal => ⟨_, surrounds_trimChars text, equal⟩
  · rintro ⟨core, around, equal⟩
    have solid : ∀ c ∈ core, isBlank c = false := by
      intro c member
      have visible := (plain c.toLower (equal ▸ List.mem_map_of_mem member)).2.2.2
      by_contra blank
      rw [Bool.not_eq_false] at blank
      rw [toLower_of_isBlank blank, blank] at visible
      cases visible
    rwa [trimChars_of_surrounds around solid]

/-- A text becomes a plain word exactly if it writes that word. -/
lemma lower_trim_eq_iff {s : String} (plain : ∀ d ∈ word.toList, IsPlain d) :
    lower (trim s) = word ↔ Writes s.toList word := by
  rw [← lowerChars_trimChars_eq_iff plain, lower, trim, ← String.toList_inj, String.toList_ofList,
    String.toList_ofList]

section

variable {sep : Char} {list entry : List Char}

/-- Whether a text stands in a list between two separators, or between one and an end of the list,
and has no separator itself. -/
def IsField (sep : Char) (list entry : List Char) : Prop :=
  sep ∉ entry ∧ ∃ before behind, list = before ++ entry ++ behind ∧
    (before = [] ∨ ∃ others, before = others ++ [sep]) ∧
    (behind = [] ∨ ∃ others, behind = sep :: others)

/-- A list without a separator is one field. -/
lemma fields_of_not_mem (whole : sep ∉ list) : fields sep list = [list] := by
  induction list with
  | nil => rfl
  | cons c rest ih =>
    rw [List.mem_cons, not_or] at whole
    simp only [fields, if_neg (Ne.symm whole.1), ih whole.2]

/-- The fields of a list are what lies between separators. -/
lemma mem_fields_iff : entry ∈ fields sep list ↔ IsField sep list entry := by
  constructor
  · intro member
    -- The induction is on the length, as the list is cut at its first separator.
    induction h : list.length using Nat.strongRecOn generalizing list with
    | ind n ih =>
      by_cases cut : sep ∈ list
      · obtain ⟨first, rest, rfl, whole⟩ := List.eq_append_cons_of_mem cut
        rw [fields_append_sep, fields_of_not_mem whole, List.singleton_append, List.mem_cons]
          at member
        obtain rfl | later := member
        · exact ⟨whole, [], sep :: rest, rfl, .inl rfl, .inr ⟨rest, rfl⟩⟩
        · rw [List.length_append, List.length_cons] at h
          obtain ⟨whole, before, behind, rfl, left, right⟩ := ih rest.length (by omega) later rfl
          refine ⟨whole, first ++ sep :: before, behind, by simp, .inr ?_, right⟩
          obtain rfl | ⟨others, rfl⟩ := left
          · exact ⟨first, rfl⟩
          · exact ⟨first ++ sep :: others, by simp⟩
      · rw [fields_of_not_mem cut, List.mem_singleton] at member
        subst member
        exact ⟨cut, [], [], by simp, .inl rfl, .inl rfl⟩
  · rintro ⟨whole, before, behind, rfl, left, right⟩
    have first : entry ∈ fields sep (entry ++ behind) := by
      obtain rfl | ⟨others, rfl⟩ := right
      · rw [List.append_nil, fields_of_not_mem whole]
        exact List.mem_cons_self
      · rw [fields_append_sep, fields_of_not_mem whole]
        exact List.mem_cons_self
    rw [List.append_assoc]
    obtain rfl | ⟨others, rfl⟩ := left
    · exact first
    · rw [List.append_assoc, List.singleton_append, fields_append_sep]
      exact List.mem_append_right _ first

end

end Chip8.Text
