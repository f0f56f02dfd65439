import Chip8.Number
/-!
# Counting loops

A loop that counts its rounds in double precision and goes on as long as the count is below a bound.
There counting by ones gets no further than `2 ^ 53`, whose successor is rounded back to it. With a
greater bound a loop goes on until one of its rounds ends it, and if none does, it goes on for ever.
A loop that goes on for ever, and one with a round that does, comes to nothing.
-/

namespace Chip8

namespace Number

/-- The greatest number that counting by ones in double precision comes to. -/
def countLimit : Nat := twoTo 53

/-- What counting up to a natural number in double precision comes to. -/
def counted (n : Nat) : Nat := min n countLimit

end Number

/-- What a round of a loop comes to: a state from which the loop goes on, or the result with which
it ends. -/
inductive Round (σ ρ : Type) where
  | next (state : σ)
  | done (result : ρ)

/-- A loop over states: the bound of its count, what the round at a count makes of a state, and the
result where the count has come to the bound. A round that goes on for ever comes to nothing. -/
structure Loop (σ ρ : Type) where
  bound : Number
  body : Nat → σ → Option (Round σ ρ)
  finish : σ → ρ

namespace Loop

variable {σ ρ : Type}

/-- What a loop comes to from a count and a state on. -/
def runFrom (l : Loop σ ρ) (count : Nat) (s : σ) : Option ρ :=
  if l.bound.isAbove count then
    match l.body count s with
    | some (.next s') => l |>.runFrom (Number.counted (count + 1)) s'
    | some (.done result) => some result
    | none => none
  else some (l.finish s)
partial_fixpoint

/-- What a loop comes to from a state on. -/
def run (l : Loop σ ρ) (s : σ) : Option ρ := l.runFrom 0 s

end Loop

end Chip8
