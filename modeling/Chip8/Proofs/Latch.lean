import Chip8.Keypad
import Mathlib.Data.Fin.SuccPred
import Mathlib.Data.List.Induction
import Mathlib.Data.Nat.Bitwise
import Mathlib.Data.Rat.Lemmas
import Mathlib.Tactic.Lemma
/-!
# What a keypad remembers

`Keypad.act` is what an event does to a keypad, and `Keypad.after` what a sequence of events does to
one that is idle. `Held`, `Open` and `Caught` look back over such a sequence, all three in terms of
`Since`: the last event of one kind came after the last of another. A step lemma for each of the
fields of a keypad matches the one for `Since` (`since_concat`). So by induction the fields say what
the history says (`holds_after`, `wait_eq_some_none_iff`, `wait_eq_some_some_iff`), and
`take_first_press` describes from this what is taken, and when.
-/

namespace Chip8

namespace Digit

/-- The numbers that are digits are those from zero to fifteen. -/
lemma ofNumber?_eq_some_iff {n : Number} {d : Digit} :
    ofNumber? n = some d ↔ n = .finite d.val := by
  constructor
  · intro read
    obtain ⟨k, whole, digit⟩ := Option.bind_eq_some_iff.1 read
    cases n with
    | finite q =>
      rw [Number.toInt?, Option.ite_none_right_eq_some, Option.some.injEq] at whole
      obtain ⟨unit, rfl⟩ := whole
      rw [← Rat.coe_int_num_of_den_eq_one unit, ← ofInt?_eq_some_iff.1 digit]
      rfl
    | nan => cases whole
    | infinite => cases whole
  · rintro rfl
    exact (ofNumber?_int d.val).trans (ofInt?_eq_some_iff.2 rfl)

end Digit

namespace Keypad

variable {k : Keypad} {latch : Option Key}

/-- A key that goes down or up is held or not, and no other changes. -/
lemma holds_press (k : Keypad) (key key' : Key) (down : Bool) :
    (k.press key down).holds key' = if key' = key then down else k.holds key' := by
  change (k.pressed.set key down)[key'.val] = if key' = key then down else k.pressed[key'.val]
  simp only [Vector.getElem_set, Fin.val_inj, eq_comm (a := key)]

/-- A keypad that waits catches the first key that goes down. -/
lemma latched_press_of_armed (armed : k.waiting = true) (key : Key) (down : Bool) :
    (k.press key down).latched =
      k.latched.or (if down && !k.holds key then some key else none) := by
  simp only [press, armed, Bool.true_and]
  cases k.latched with
  | none => cases down && !k.holds key <;> rfl
  | some key' => rw [Option.isNone_some, Bool.and_false]; rfl

/-- No key is held after all were released. -/
lemma holds_releaseAll (k : Keypad) (key : Key) : k.releaseAll.holds key = false := by
  change (Vector.replicate 16 false)[key.val] = false
  rw [Vector.getElem_replicate]

/-- What is done to a keypad. -/
inductive Event where
  | setKey (index : Number) (down : Bool)
  | arm
  | take
  | releaseAll

/-- A key goes down or up. -/
def Event.key (key : Key) (down : Bool) : Event := .setKey (.finite key.val) down

/-- The keypad after an event. -/
def act (k : Keypad) : Event → Keypad
  | .setKey index down => (k.setKey index down).1
  | .arm => k.arm
  | .take => k.take.2
  | .releaseAll => k.releaseAll

/-- The keypad after some events, the first of which it meets when no key is down and no wait is
armed. -/
def after (events : List Event) : Keypad := events.foldl act idle

section Since

variable {marks breaks : List Event → Event → Prop} {events : List Event} {event : Event}

/-- Whether among some events there is one that marks and after which none breaks. What an event
does may depend on the events before it. -/
def Since (marks breaks : List Event → Event → Prop) (events : List Event) : Prop :=
  ∃ before event later, events = before ++ event :: later ∧ marks before event ∧
    ∀ between next rest, later = between ++ next :: rest →
      ¬ breaks (before ++ event :: between) next

/-- Before all events nothing has happened. -/
lemma not_since_nil : ¬ Since marks breaks [] := by
  rintro ⟨before, event, later, none_, -⟩
  exact absurd none_ (by simp)

/-- Where a list with one more element can be cut in front of an element. -/
lemma concat_eq_iff {α : Type} {xs before later : List α} {x y : α} :
    xs ++ [x] = before ++ y :: later ↔
      (xs = before ∧ x = y ∧ later = []) ∨
        ∃ rest, xs = before ++ y :: rest ∧ later = rest ++ [x] := by
  constructor
  · intro parts
    obtain rfl | ⟨rest, last, rfl⟩ := List.eq_nil_or_concat later
    · obtain ⟨rfl, same⟩ := List.append_inj' parts rfl
      exact .inl ⟨rfl, List.singleton_inj.1 same, rfl⟩
    · rw [List.concat_eq_append, ← List.cons_append, ← List.append_assoc] at parts
      obtain ⟨rfl, same⟩ := List.append_inj' parts rfl
      exact .inr ⟨rest, rfl, by rw [List.concat_eq_append, same]⟩
  · rintro (⟨rfl, rfl, rfl⟩ | ⟨rest, rfl, rfl⟩)
    · rfl
    · rw [List.append_assoc, List.cons_append]

/-- The last event marks, or it does not break what was marked before. -/
lemma since_concat : Since marks breaks (events ++ [event]) ↔
    marks events event ∨ Since marks breaks events ∧ ¬ breaks events event := by
  constructor
  · rintro ⟨before, mark, later, parts, marked, kept⟩
    obtain ⟨rfl, rfl, -⟩ | ⟨rest, rfl, rfl⟩ := concat_eq_iff.1 parts
    · exact .inl marked
    · refine .inr ⟨⟨before, mark, rest, rfl, marked, fun between next behind cut => ?_⟩, ?_⟩
      · refine kept between next (behind ++ [event]) ?_
        rw [cut, List.append_assoc, List.cons_append]
      · exact kept rest event [] rfl
  · rintro (marked | ⟨⟨before, mark, later, rfl, marked, kept⟩, whole⟩)
    · exact ⟨events, event, [], rfl, marked, by simp⟩
    · refine ⟨before, mark, later ++ [event], by simp, marked, fun between next behind cut => ?_⟩
      obtain ⟨rfl, rfl, -⟩ | ⟨rest, cut, -⟩ := concat_eq_iff.1 cut
      · exact whole
      · exact kept between next rest cut

end Since

/-- Whether the last event of a key since all keys were released was that it went down. -/
def Held (events : List Event) (key : Key) : Prop :=
  Since (fun _ event => event = .key key true)
    (fun _ event => event = .releaseAll ∨ ∃ down, event = .key key down) events

/-- Whether an event takes a key from up to down. -/
def Presses (before : List Event) (key : Key) (event : Event) : Prop :=
  event = .key key true ∧ ¬ Held before key

/-- Whether no key went from up to down since a wait was armed. -/
def Open (events : List Event) : Prop :=
  Since (fun _ event => event = .arm) (fun before event => ∃ key, Presses before key event) events

/-- Whether a key was the first that went from up to down since a wait was armed, and that wait was
neither armed again nor taken since. -/
def Caught (events : List Event) (key : Key) : Prop :=
  Since (fun before event => Open before ∧ Presses before key event)
    (fun _ event => event = .arm ∨ event = .take) events

/-- The wait of a keypad, if one is armed, with what it has caught. -/
def wait (k : Keypad) : Option (Option Key) := if k.waiting then some k.latched else none

section

variable {key key' : Key} {down down' : Bool}

/-- Events of keys are the same if key and direction are. -/
@[simp]
lemma key_inj : Event.key key down = .key key' down' ↔ key = key' ∧ down = down' := by
  simp [Event.key, Fin.val_inj]

/-- The event of a key arms no wait. -/
@[simp]
lemma key_ne_arm : Event.key key down ≠ .arm := nofun

/-- The event of a key takes no key. -/
@[simp]
lemma key_ne_take : Event.key key down ≠ .take := nofun

/-- The event of a key does not release all keys. -/
@[simp]
lemma key_ne_releaseAll : Event.key key down ≠ .releaseAll := nofun

/-- Arming a wait is no event of a key. -/
@[simp]
lemma arm_ne_key : Event.arm ≠ .key key down := nofun

/-- Taking a key is no event of a key. -/
@[simp]
lemma take_ne_key : Event.take ≠ .key key down := nofun

/-- Releasing all keys is no event of a key. -/
@[simp]
lemma releaseAll_ne_key : Event.releaseAll ≠ .key key down := nofun

end

/-- The event of an index that is refused is none of a key. -/
lemma ne_key_of_refused {index : Number} (refused : Digit.ofNumber? index = none) (key : Key)
    (down down' : Bool) : Event.setKey index down ≠ .key key down' := by
  rintro same
  cases same
  rw [Digit.ofNumber?_eq_some_iff.2 rfl] at refused
  cases refused

/-- The index of a key sets that key. -/
lemma setKey_eq_ok (k : Keypad) (key : Key) (down : Bool) :
    k.setKey (.finite key.val) down = (k.press key down, .ok ()) := by
  rw [setKey, Keypad.key, Digit.ofNumber?_eq_some_iff.2 rfl]

/-- A key that is refused changes nothing. -/
lemma setKey_eq_error {index : Number} (refused : Digit.ofNumber? index = none) (k : Keypad)
    (down : Bool) : k.setKey index down = (k, .error (.noKey index)) := by
  rw [setKey, Keypad.key, refused]

/-- The event of a key presses or releases it. -/
lemma act_key (k : Keypad) (key : Key) (down : Bool) :
    k.act (.key key down) = k.press key down := by
  rw [Event.key, act, setKey_eq_ok]

/-- An index that is refused leaves the keypad as it is. -/
lemma act_refused {index : Number} (refused : Digit.ofNumber? index = none) (k : Keypad)
    (down : Bool) : k.act (.setKey index down) = k := by
  rw [act, setKey_eq_error refused]

/-- An event is that of a key, or is refused, or has to do with the wait, or releases all keys. -/
lemma event_cases (event : Event) :
    (∃ key down, event = .key key down) ∨
    (∃ index down, Digit.ofNumber? index = none ∧ event = .setKey index down) ∨
    event = .arm ∨ event = .take ∨ event = .releaseAll := by
  cases event with
  | setKey index down =>
    cases known : Digit.ofNumber? index with
    | some key =>
      obtain rfl := Digit.ofNumber?_eq_some_iff.1 known
      exact .inl ⟨key, down, rfl⟩
    | none => exact .inr (.inl ⟨index, down, known, rfl⟩)
  | arm => simp
  | take => simp
  | releaseAll => simp

/-- One event more comes behind the others. -/
lemma after_concat (events : List Event) (event : Event) :
    after (events ++ [event]) = (after events).act event := by
  rw [after, List.foldl_append]
  rfl

section

variable {events : List Event} {event : Event} {key : Key}

/-- Whether a key is held after one event more. -/
lemma held_concat : Held (events ++ [event]) key ↔ event = .key key true ∨
    Held events key ∧ ¬ (event = .releaseAll ∨ ∃ down, event = .key key down) :=
  since_concat

/-- Whether a wait is open after one event more. -/
lemma open_concat : Open (events ++ [event]) ↔ event = .arm ∨
    Open events ∧ ¬ ∃ key, Presses events key event :=
  since_concat

/-- Whether a key is caught after one event more. -/
lemma caught_concat : Caught (events ++ [event]) key ↔
    (Open events ∧ Presses events key event) ∨
    Caught events key ∧ ¬ (event = .arm ∨ event = .take) :=
  since_concat

/-- No key is held at first. -/
lemma holds_idle (key : Key) : idle.holds key = false := holds_releaseAll idle key

/-- Taking a key does not change which are held. -/
lemma holds_take (k : Keypad) (key : Key) : k.take.2.holds key = k.holds key := by
  rw [take]
  split <;> rfl

/-- What is taken is what the wait has caught. -/
lemma take_fst (k : Keypad) : k.take.1 = k.wait.join := by
  rw [take, wait]
  cases k.waiting <;> cases k.latched <;> rfl

/-- There is a wait if the keypad is waiting. -/
lemma isSome_wait (k : Keypad) : k.wait.isSome = k.waiting := by
  rw [wait]
  cases k.waiting <;> rfl

/-- A wait that has just been armed has caught nothing. -/
lemma wait_arm (k : Keypad) : k.arm.wait = some none := rfl

/-- Releasing all keys does not touch the wait. -/
lemma wait_releaseAll (k : Keypad) : k.releaseAll.wait = k.wait := rfl

/-- Taking ends a wait that has caught something. -/
lemma wait_take (k : Keypad) : k.take.2.wait = k.wait.filter (·.isNone) := by
  obtain ⟨pressed, waiting, latched⟩ := k
  cases waiting <;> cases latched <;> rfl

/-- A wait that has caught nothing catches a key that goes down. -/
lemma wait_press (k : Keypad) (key : Key) (down : Bool) :
    (k.press key down).wait =
      k.wait.map (·.or (if down && !k.holds key then some key else none)) := by
  rw [wait, wait, show (k.press key down).waiting = k.waiting from rfl]
  cases armed : k.waiting with
  | false => rfl
  | true => rw [if_pos rfl, if_pos rfl, latched_press_of_armed armed, Option.map_some]

/-- Once a key has been taken, there is no wait. -/
lemma wait_take_of_taken (taken : k.take.1 ≠ none) : k.take.2.wait = none := by
  rw [take_fst] at taken
  rw [wait_take]
  cases found : k.wait with
  | none => rfl
  | some caught =>
    cases caught with
    | none => rw [found] at taken; exact absurd rfl taken
    | some => rfl

/-- When all keys have been released, a wait catches the next that goes down. -/
lemma take_press_releaseAll (armed : k.waiting = true) (empty : k.take.1 = none) (key : Key) :
    (k.releaseAll.press key true).take.1 = some key := by
  rw [← isSome_wait] at armed
  rw [take_fst] at empty ⊢
  rw [wait_press, wait_releaseAll, holds_releaseAll]
  cases found : k.wait with
  | none => rw [found] at armed; cases armed
  | some caught =>
    rw [found] at empty
    rw [show caught = none from empty]
    rfl

/-- The keys that are down are those that the events say. -/
lemma holds_after (events : List Event) (key : Key) :
    (after events).holds key = true ↔ Held events key := by
  induction events using List.reverseRecOn with
  | nil =>
    rw [after, List.foldl_nil, holds_idle]
    exact iff_of_false nofun not_since_nil
  | append_singleton events event ih =>
    rw [after_concat, held_concat, ← ih]
    obtain ⟨key', down, rfl⟩ | ⟨index, down, refused, rfl⟩ | rfl | rfl | rfl := event_cases event
    · rw [act_key, holds_press]
      by_cases this : key' = key
      · simp [this]
      · simp [this, Ne.symm this]
    · rw [act_refused refused]
      simp [ne_key_of_refused refused]
    · simp [act, arm, holds]
    · simp [act, holds_take]
    · simp [act, holds_releaseAll]

/-- A wait that has caught nothing is one since which no key went down. -/
lemma wait_eq_some_none_iff (events : List Event) :
    (after events).wait = some none ↔ Open events := by
  induction events using List.reverseRecOn with
  | nil => exact iff_of_false nofun not_since_nil
  | append_singleton events event ih =>
    simp only [after_concat, open_concat, ← ih, Presses, ← holds_after]
    obtain ⟨key', down, rfl⟩ | ⟨index, down, refused, rfl⟩ | rfl | rfl | rfl := event_cases event
    · rw [act_key, wait_press]
      obtain none_ | ⟨_ | latch⟩ := (after events).wait <;> simp
    · rw [act_refused refused]
      simp [ne_key_of_refused refused]
    · simp [act, wait_arm]
    · simp [act, wait_take]
    · simp [act, wait_releaseAll]

/-- What a wait has caught is the first key that went down since. -/
lemma wait_eq_some_some_iff (events : List Event) (key : Key) :
    (after events).wait = some (some key) ↔ Caught events key := by
  induction events using List.reverseRecOn with
  | nil => exact iff_of_false nofun not_since_nil
  | append_singleton events event ih =>
    simp only [after_concat, caught_concat, ← ih, ← wait_eq_some_none_iff, Presses, ← holds_after]
    obtain ⟨key', down, rfl⟩ | ⟨index, down, refused, rfl⟩ | rfl | rfl | rfl := event_cases event
    · rw [act_key, wait_press]
      obtain none_ | ⟨_ | latch⟩ := (after events).wait
      · simp
      · by_cases this : key' = key
        · subst this
          simp
        · simp [this]
      · simp
    · rw [act_refused refused]
      simp [ne_key_of_refused refused]
    · simp [act, wait_arm]
    · simp [act, wait_take]
    · simp [act, wait_releaseAll]

/-- Without a wait there is none until one is armed. -/
lemma wait_act_of_none {k : Keypad} (none_ : k.wait = none) (other : event ≠ .arm) :
    (k.act event).wait = none := by
  obtain ⟨key', down, rfl⟩ | ⟨index, down, refused, rfl⟩ | rfl | rfl | rfl := event_cases event
  · rw [act_key, wait_press, none_, Option.map_none]
  · rwa [act_refused refused]
  · exact absurd rfl other
  · rw [act, wait_take, none_, Option.filter_none]
  · exact none_

/-- Without arming there is no wait. -/
lemma wait_foldl_of_none {k : Keypad} (none_ : k.wait = none) (quiet : .arm ∉ events) :
    (events.foldl act k).wait = none := by
  induction events generalizing k with
  | nil => exact none_
  | cons event rest ih =>
    rw [List.mem_cons, not_or] at quiet
    exact ih (wait_act_of_none none_ (Ne.symm quiet.1)) quiet.2

/-- Later events come behind the others. -/
lemma after_append (events later : List Event) :
    after (events ++ later) = later.foldl act (after events) := List.foldl_append

end

/-- A number made up of different powers of two has these as its bits. -/
lemma foldl_powers {n : Nat} (f : Fin n → Bool) :
    ∃ m < 2 ^ n, Fin.foldl n (fun m j => if f j then m + Nat.pow 2 j.val else m) 0 = m ∧
      ∀ i, m.testBit i = true ↔ ∃ j : Fin n, j.val = i ∧ f j = true := by
  induction n with
  | zero => exact ⟨0, by decide, rfl, by simp⟩
  | succ n ih =>
    obtain ⟨m, small, lower, bits⟩ := ih fun j => f j.castSucc
    have carry : m + Nat.pow 2 n = 2 ^ n ||| m := by
      have apart := Nat.two_pow_add_eq_or_of_lt small 1
      rwa [Nat.mul_one, Nat.add_comm] at apart
    have wide : m < 2 ^ (n + 1) := Nat.lt_trans small (Nat.pow_lt_pow_succ (by decide))
    simp only [Fin.exists_fin_succ', ← bits, Fin.val_castSucc, Fin.val_last]
    rw [Fin.foldl_succ_last]
    simp only [Fin.val_castSucc, lower, Fin.val_last, carry]
    cases f (Fin.last n) with
    | false => exact ⟨m, wide, rfl, by simp⟩
    | true =>
      refine ⟨_, Nat.or_lt_two_pow (Nat.pow_lt_pow_succ (by decide)) wide, rfl, fun i => ?_⟩
      simp [Nat.testBit_two_pow, or_comm]

/-- The bits of the mask are the keys that are held. -/
lemma testBit_mask (k : Keypad) (n : Nat) :
    k.mask.testBit n = true ↔ ∃ key : Key, key.val = n ∧ k.holds key = true := by
  obtain ⟨m, -, same, bits⟩ := foldl_powers k.holds
  rw [mask, same, bits]

/-- A keypad that meets any sequence of events, beginning with no key down and no wait armed. What
is taken is the first key that went from up to down since the wait was last armed, if that wait was
not taken before, and nothing otherwise. Taking a key ends the wait until the next is armed, arming
forgets what was caught, and releasing all keys leaves the wait with its catch, but lets a key that
was held go down again. A bit of the mask is set just if the key was last said to be down since all
keys were released. The events of the sixteen keys are accepted; those of others are refused and
change nothing, then or later. -/
theorem take_first_press :
    (∀ (events : List Event) key, (after events).take.1 = some key ↔ Caught events key) ∧
    (∀ events later : List Event, (after events).take.1 ≠ none → Event.arm ∉ later →
      (after (events ++ Event.take :: later)).waiting = false ∧
        (after (events ++ Event.take :: later)).take.1 = none) ∧
    (∀ events : List Event, (after (events ++ [Event.arm])).waiting = true ∧
      (after (events ++ [Event.arm])).take.1 = none) ∧
    (∀ events : List Event,
      (after (events ++ [Event.releaseAll])).waiting = (after events).waiting ∧
      (after (events ++ [Event.releaseAll])).take.1 = (after events).take.1 ∧
      ∀ key, (after events).waiting = true → (after events).take.1 = none →
        (after (events ++ [Event.releaseAll, Event.key key true])).take.1 = some key) ∧
    (∀ (events : List Event) n, (after events).mask.testBit n = true ↔
      ∃ key : Key, key.val = n ∧ Held events key) ∧
    (∀ (events : List Event) key down, (after events).setKey (.finite key.val) down =
      (after (events ++ [Event.key key down]), .ok ())) ∧
    ∀ index down, (∀ key : Key, index ≠ .finite key.val) → ∀ events later : List Event,
      (after events).setKey index down = (after events, .error (.noKey index)) ∧
        after (events ++ Event.setKey index down :: later) = after (events ++ later) := by
  refine ⟨?_, ?_, ?_, ?_, ?_, ?_, ?_⟩
  · intro events key
    rw [take_fst, Option.join_eq_some_iff, wait_eq_some_some_iff]
  · intro events later taken quiet
    have gone : (after (events ++ .take :: later)).wait = none := by
      rw [after_append, List.foldl_cons]
      exact wait_foldl_of_none (wait_take_of_taken taken) quiet
    rw [← isSome_wait, take_fst, gone]
    exact ⟨rfl, rfl⟩
  · intro events
    rw [after_concat]
    exact ⟨rfl, rfl⟩
  · intro events
    rw [after_concat]
    refine ⟨rfl, ?_, ?_⟩
    · rw [take_fst, take_fst, act, wait_releaseAll]
    · intro key armed empty
      rw [after_append, List.foldl_cons, List.foldl_cons, List.foldl_nil, act_key]
      exact take_press_releaseAll armed empty key
  · intro events n
    rw [testBit_mask]
    simp only [holds_after]
  · intro events key down
    rw [setKey_eq_ok, after_concat, act_key]
  · intro index down strange events later
    have refused : Digit.ofNumber? index = none := by
      rw [Option.eq_none_iff_forall_ne_some]
      exact fun key known => strange key (Digit.ofNumber?_eq_some_iff.1 known)
    refine ⟨setKey_eq_error refused _ down, ?_⟩
    rw [after_append, after_append, List.foldl_cons, act_refused refused]

/-- A key that is held while a wait is armed, and goes down again only after all were released. -/
def heldOver (held other : Key) : List Event :=
  [.key held true, .arm, .key held true, .setKey (.finite 16) true, .releaseAll, .key held true,
    .key other true]

/-- The key is caught before another one, and not taken twice. While it is held, nothing is caught,
so that releasing all keys lets it be caught. A seventeenth key is refused. -/
theorem take_first_press_held :
    ((after (heldOver 2 5)).take.1 = some 2 ∧ Event.arm ∉ [Event.key 5 false, Event.key 5 true] ∧
      (after (heldOver 2 5 ++ Event.take :: [Event.key 5 false, Event.key 5 true])).take.1 = none) ∧
    ((after ((heldOver 2 5).take 4)).waiting = true ∧
      (after ((heldOver 2 5).take 4)).take.1 = none ∧
      (after ((heldOver 2 5).take 4 ++ [Event.releaseAll, Event.key 2 true])).take.1 = some 2) ∧
    (∀ key : Key, Number.finite 16 ≠ .finite key.val) ∧
      after (heldOver 2 5 ++ [Event.setKey (.finite 16) true]) = after (heldOver 2 5 ++ []) := by
  have ⟨_, ends, _, release, _, _, refuse⟩ := take_first_press
  have taken : (after (heldOver 2 5)).take.1 = some 2 := by decide
  have quiet : Event.arm ∉ [Event.key 5 false, Event.key 5 true] := by simp
  have armed : (after ((heldOver 2 5).take 4)).waiting = true := by decide
  have empty : (after ((heldOver 2 5).take 4)).take.1 = none := by decide
  have strange : ∀ key : Key, Number.finite 16 ≠ .finite key.val := by decide
  refine ⟨⟨taken, quiet, ?_⟩, ⟨armed, empty, (release _).2.2 2 armed empty⟩, strange, ?_⟩
  · exact (ends (heldOver 2 5) _ (by rw [taken]; nofun) quiet).2
  · exact (refuse _ true strange (heldOver 2 5) []).2

end Keypad

end Chip8
