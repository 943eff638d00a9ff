/-!
# Names of relations

The relations of a script are numbered in the order of their statements, and a number is written as a word:
`A` to `Z`, then `AA`, `AB` and so on, shorter words first.
-/

namespace PigChain.Alias

/-- The letter for a digit below 26. -/
def letter (n : Nat) : Char := Char.ofNat (65 + n % 26)

/-- The letters of the name of the `n`-th relation, counted from 0. -/
def letters (n : Nat) : List Char :=
  if n < 26 then [letter n] else letters (n / 26 - 1) ++ [letter n]

/-- The name of the `n`-th relation, counted from 0. -/
def name (n : Nat) : String := String.ofList (letters n)

end PigChain.Alias
