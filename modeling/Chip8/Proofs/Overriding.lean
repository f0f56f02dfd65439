import Chip8.Keymap
import Chip8.Proofs.Hexadecimal
import Mathlib.Data.List.TakeWhile
/-!
# Overriding a keymap

`Keymap.listed` are the entries of a list, and `Keymap.Names` says what an entry has to look like
to give a code a key. The reader finds just that in an entry (`assignment?_eq_some_iff`), and takes
the entries of a list in turn, whatever blanks and empty parts lie between them
(`override_eq_foldlM`). So a list is refused for the first entry that gives nothing, and otherwise
every code has the key of the last entry that gives it one, or else keeps what it had; and lists
that are taken one after the other do what they do when they are joined (`override_listed`).
-/

namespace Chip8

namespace Text

/-- The fields of a text are what core cuts it into. -/
lemma fields_eq_splitOn (sep : Char) (cs : List Char) : fields sep cs = cs.splitOn sep := by
  induction cs with
  | nil => rfl
  | cons c rest ih =>
    rw [fields, List.splitOn_cons_eq_if_modifyHead, ih]
    by_cases cut : c = sep
    · rw [if_pos cut, if_pos (by simp [cut])]
    · rw [if_neg cut, if_neg (by simp [cut])]
      cases parts : rest.splitOn sep with
      | nil => exact (List.splitOn_ne_nil sep rest parts).elim
      | cons => rfl

end Text

namespace Keymap

variable {m m' : Keymap} {c : Char} {key key' : Key} {code code' : String} {entry : List Char}
  {entries : List (List Char)}

/-- The entries of a list: what stands between its commas, without the blanks around it. What is
empty then does not count. -/
def listed (list : String) : List (List Char) :=
  ((list.toList.splitOn ',').map Text.trimChars).filter (· ≠ [])

/-- Whether an entry gives a code a key: letters and digits of ASCII, an equals sign, and a
hexadecimal digit in either case. -/
def Names (entry : List Char) (code : String) (key : Key) : Prop :=
  code ≠ "" ∧ (∀ c ∈ code.toList, c.isAlphanum) ∧
    ∃ digit, entry = code.toList ++ ['=', digit] ∧
      (digit = Text.lowerDigit key ∨ digit = Text.upperDigit key)

/-- Whether an entry gives some code a key. -/
def IsEntry (entry : List Char) : Prop := ∃ code key, Names entry code key

/-- Whether the last of some entries that gives a code a key gives it this one. -/
def Gives (entries : List (List Char)) (code : String) (key : Key) : Prop :=
  ∃ before entry behind, entries = before ++ entry :: behind ∧ Names entry code key ∧
    ∀ later ∈ behind, ∀ key', ¬ Names later code key'

/-- Whether none of some entries gives a code a key. -/
def Ignores (entries : List (List Char)) (code : String) : Prop :=
  ∀ entry ∈ entries, ∀ key, ¬ Names entry code key

/-- Both forms of a digit are read as its key. -/
lemma keyOfDigit?_digits :
    ∀ key : Key, keyOfDigit? (Text.lowerDigit key) = some key ∧
      keyOfDigit? (Text.upperDigit key) = some key := by
  decide

/-- A character is read as a key if and only if it is one of the two forms of its digit. -/
lemma keyOfDigit?_eq_some_iff :
    keyOfDigit? c = some key ↔ c = Text.lowerDigit key ∨ c = Text.upperDigit key := by
  constructor
  · intro read
    obtain ⟨d, value, rfl⟩ := Option.map_eq_some_iff.1 read
    obtain ⟨small, digit⟩ := Text.eq_digit_of_digitIn? value
    rwa [Digit.val_ofNat, Nat.mod_eq_of_lt small]
  · rintro (rfl | rfl)
    · exact (keyOfDigit?_digits key).1
    · exact (keyOfDigit?_digits key).2

/-- The first of some pairs decides if it has the code, and the others if not. -/
lemma lookup_cons_eq_if (code : String) (pair : String × Key) (pairs : List (String × Key)) :
    (pair :: pairs).lookup code = if code = pair.1 then some pair.2 else pairs.lookup code := by
  rw [List.lookup_cons]
  by_cases same : code = pair.1
  · rw [if_pos same, beq_iff_eq.2 same]
  · rw [if_neg same, beq_eq_false_iff_ne.2 same]

/-- A pair that was put in decides for its code and for no other. -/
lemma lookup_insertEntry (code code' : String) (key : Key) (pairs : List (String × Key)) :
    (insertEntry code key pairs).lookup code' =
      if code' = code then some key else pairs.lookup code' := by
  induction pairs with
  | nil => rw [insertEntry, lookup_cons_eq_if]
  | cons pair rest ih =>
    rw [insertEntry]
    by_cases same : pair.1 = code
    · rw [if_pos same, lookup_cons_eq_if, lookup_cons_eq_if, same]
      split <;> rfl
    · rw [if_neg same, lookup_cons_eq_if, lookup_cons_eq_if, ih]
      by_cases this : code' = pair.1
      · rw [if_pos this, if_neg (this ▸ same), if_pos this]
      · rw [if_neg this, if_neg this]

/-- The code that was inserted has the key, and the others have theirs. -/
lemma get?_insert (m : Keymap) (code code' : String) (key : Key) :
    (m.insert code key).get? code' = if code' = code then some key else m.get? code' :=
  lookup_insertEntry code code' key m.entries

/-- In an entry the reader finds the code that it names, and the key. -/
lemma assignment?_eq_some_iff : assignment? entry = some (code, key) ↔ Names entry code key := by
  have whole : entry.takeWhile isCodeChar ++ entry.dropWhile isCodeChar = entry :=
    List.takeWhile_append_dropWhile
  constructor
  · intro read
    rw [assignment?] at read
    split at read
    case h_1 digit rest =>
      rw [Option.ite_none_left_eq_some, Option.map_eq_some_iff] at read
      obtain ⟨some_, key, value, same⟩ := read
      cases same
      refine ⟨?_, ?_, digit, ?_, keyOfDigit?_eq_some_iff.1 value⟩
      · simpa using some_
      · rw [String.toList_ofList]
        exact fun c member => List.mem_takeWhile_imp member
      · rw [String.toList_ofList, ← rest, whole]
    case h_2 => cases read
  · rintro ⟨some_, plain, digit, rfl, value⟩
    change ∀ c ∈ code.toList, isCodeChar c at plain
    have stop : ¬ isCodeChar '=' := by decide
    have front : (code.toList ++ ['=', digit]).takeWhile isCodeChar = code.toList := by
      rw [List.takeWhile_append_of_pos plain, List.takeWhile_cons_of_neg stop, List.append_nil]
    have back : (code.toList ++ ['=', digit]).dropWhile isCodeChar = ['=', digit] := by
      rw [List.dropWhile_append_of_pos plain, List.dropWhile_cons_of_neg stop]
    simp only [assignment?, front, back, keyOfDigit?_eq_some_iff.2 value]
    simp [some_]

/-- A field is an assignment if and only if it has the form of an entry. -/
lemma isSome_assignment?_iff : (assignment? entry).isSome ↔ IsEntry entry := by
  simp only [Option.isSome_iff_exists, Prod.exists, assignment?_eq_some_iff, IsEntry]

/-- It can be decided whether an entry names a code and a key. -/
instance : Decidable (Names entry code key) := decidable_of_iff _ assignment?_eq_some_iff

/-- It can be decided whether a field has the form of an entry. -/
instance : Decidable (IsEntry entry) := decidable_of_iff _ isSome_assignment?_iff

/-- An entry names one code and one key. -/
lemma Names.unique (first : Names entry code key) (second : Names entry code' key') :
    code = code' ∧ key = key' := by
  have same := (assignment?_eq_some_iff.2 first).symm.trans (assignment?_eq_some_iff.2 second)
  rwa [Option.some.injEq, Prod.mk.injEq] at same

/-- Overrides a map by an entry that is not empty. -/
def add (m : Keymap) (entry : List Char) : Except InputError Keymap :=
  match assignment? entry with
  | some (code, key) => .ok (m.insert code key)
  | none => .error (.keymapEntry (String.ofList entry))

/-- An entry is added by inserting what it names. -/
lemma add_of_names (names : Names entry code key) (m : Keymap) :
    m.add entry = .ok (m.insert code key) := by
  rw [add, assignment?_eq_some_iff.2 names]

/-- A field of another form is refused with its text. -/
lemma add_of_not_isEntry (strange : ¬ IsEntry entry) (m : Keymap) :
    m.add entry = .error (.keymapEntry (String.ofList entry)) := by
  rw [← isSome_assignment?_iff, Option.not_isSome_iff_eq_none] at strange
  rw [add, strange]

/-- Adding fields adds those that are not blank, one after the other. -/
lemma addEntries_eq_foldlM (m : Keymap) (parts : List (List Char)) :
    m.addEntries parts = ((parts.map Text.trimChars).filter (· ≠ [])).foldlM add m := by
  induction parts generalizing m with
  | nil => rfl
  | cons part rest ih =>
    simp only [addEntries, List.map_cons, List.isEmpty_iff]
    by_cases empty : Text.trimChars part = []
    · rw [if_pos empty, List.filter_cons_of_neg (by simp [empty]), ih]
    · rw [if_neg empty, List.filter_cons_of_pos (by simp [empty]), List.foldlM_cons, add]
      cases assignment? (Text.trimChars part) with
      | none => rfl
      | some named => exact ih _

/-- The entries of a list are taken in turn. -/
lemma override_eq_foldlM (m : Keymap) (list : String) :
    m.override list = (listed list).foldlM add m := by
  rw [override, addEntries_eq_foldlM, Text.fields_eq_splitOn, listed]

/-- The fields of two lists that are joined by a comma are those of the one and then those of the
other. -/
lemma listed_append (first second : String) :
    listed (first ++ "," ++ second) = listed first ++ listed second := by
  have parts : (first ++ "," ++ second).toList.splitOn ',' =
      first.toList.splitOn ',' ++ second.toList.splitOn ',' := by
    rw [String.toList_append, String.toList_append, List.append_assoc]
    exact List.splitOn_append_cons_self ..
  rw [listed, parts, List.map_append, List.filter_append, listed, listed]

/-- Entries of which each gives a code a key are accepted. A code then has the key that the last of
them gives it, or keeps its own. -/
lemma foldlM_add (all : ∀ entry ∈ entries, IsEntry entry) (m : Keymap) :
    ∃ m', entries.foldlM add m = .ok m' ∧ ∀ code,
      (∀ key, Gives entries code key → m'.get? code = some key) ∧
      (Ignores entries code → m'.get? code = m.get? code) := by
  induction entries generalizing m with
  | nil =>
    refine ⟨m, rfl, fun code => ⟨?_, fun _ => rfl⟩⟩
    rintro key ⟨before, entry, behind, none_, -⟩
    exact absurd none_ (by simp)
  | cons entry rest ih =>
    obtain ⟨⟨named, value, names⟩, others⟩ := List.forall_mem_cons.1 all
    obtain ⟨m', done, keys⟩ := ih others (m.insert named value)
    refine ⟨m', ?_, fun code => ⟨?_, ?_⟩⟩
    · rw [List.foldlM_cons, add_of_names names]
      exact done
    · rintro key ⟨before, given, behind, parts, gives, last⟩
      cases before with
      | nil =>
        obtain ⟨rfl, rfl⟩ := List.cons.inj parts
        obtain ⟨rfl, rfl⟩ := gives.unique names
        rw [(keys code).2 last, get?_insert, if_pos rfl]
      | cons first before =>
        obtain ⟨-, rfl⟩ := List.cons.inj parts
        exact (keys code).1 key ⟨before, given, behind, rfl, gives, last⟩
    · intro ignored
      obtain ⟨now, later⟩ := List.forall_mem_cons.1 ignored
      have other : code ≠ named := by
        rintro rfl
        exact now value names
      rw [(keys code).2 later, get?_insert, if_neg other]

/-- A map that is overridden by a list. The list is refused for the first of its entries that gives
no code a key. If there is none, there is a map in which a code has the key that its last entry
gives it; a code without an entry has the key that it had, if any. And one list after another
overrides a map just as the two of them do when a comma joins them: to the same map, or with the
same error. -/
theorem override_listed (m : Keymap) :
    (∀ list before entry behind, listed list = before ++ entry :: behind →
      (∀ earlier ∈ before, IsEntry earlier) → ¬ IsEntry entry →
      m.override list = .error (.keymapEntry (String.ofList entry))) ∧
    (∀ list, (∀ entry ∈ listed list, IsEntry entry) → ∃ m', m.override list = .ok m' ∧
      ∀ code, (∀ key, Gives (listed list) code key → m'.get? code = some key) ∧
        (Ignores (listed list) code → m'.get? code = m.get? code)) ∧
    ∀ first second,
      m.override first >>= (·.override second) = m.override (first ++ "," ++ second) := by
  refine ⟨?_, ?_, ?_⟩
  · intro list before entry behind parts accepted strange
    obtain ⟨m', done, -⟩ := foldlM_add accepted m
    rw [override_eq_foldlM, parts, List.foldlM_append, done]
    change m'.add entry >>= _ = _
    rw [add_of_not_isEntry strange]
    rfl
  · intro list all
    rw [override_eq_foldlM]
    exact foldlM_add all m
  · intro first second
    simp only [override_eq_foldlM, listed_append, List.foldlM_append]

/-- A list that gives a code two keys, and one whose second entry is refused although the third
would be, too. -/
theorem override_listed_twice :
    (listed " KeyP=a,, KeyP=B ,\tx1=0" = ["KeyP=a".toList, "KeyP=B".toList, "x1=0".toList] ∧
      ∃ m', standard.override " KeyP=a,, KeyP=B ,\tx1=0" = .ok m' ∧ m'.get? "KeyP" = some 0xB ∧
        m'.get? "KeyQ" = standard.get? "KeyQ") ∧
    listed "KeyP=a, Key P=1 ,KeyP=10" = ["KeyP=a".toList, "Key P=1".toList, "KeyP=10".toList] ∧
      standard.override "KeyP=a, Key P=1 ,KeyP=10" = .error (.keymapEntry "Key P=1") := by
  obtain ⟨refused, accepted, -⟩ := override_listed standard
  have parts : listed " KeyP=a,, KeyP=B ,\tx1=0" =
      ["KeyP=a".toList, "KeyP=B".toList, "x1=0".toList] := by decide
  have parts' : listed "KeyP=a, Key P=1 ,KeyP=10" =
      ["KeyP=a".toList, "Key P=1".toList, "KeyP=10".toList] := by decide
  refine ⟨⟨parts, ?_⟩, parts', ?_⟩
  · obtain ⟨m', done, keys⟩ := accepted " KeyP=a,, KeyP=B ,\tx1=0" (by rw [parts]; decide)
    rw [parts] at keys
    have last : Gives ["KeyP=a".toList, "KeyP=B".toList, "x1=0".toList] "KeyP" 0xB :=
      ⟨["KeyP=a".toList], "KeyP=B".toList, ["x1=0".toList], rfl, by decide, by decide⟩
    have none_ : Ignores ["KeyP=a".toList, "KeyP=B".toList, "x1=0".toList] "KeyQ" := by
      rw [Ignores]
      decide
    exact ⟨m', done, (keys "KeyP").1 _ last, (keys "KeyQ").2 none_⟩
  · exact refused _ ["KeyP=a".toList] _ _ parts' (by decide) (by decide)

end Keymap

end Chip8
