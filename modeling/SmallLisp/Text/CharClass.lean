/-!
# Classes of characters

A class of characters is a list of *runs*: `first, first + step, …` up to `last`. Runs of step two
are what alphabets with alternating capital and small letters need.
-/

namespace SmallLisp.Text

/-- The code points `first`, `first + step`, `first + 2 * step`, … that are at most `last`. -/
structure Run where
  first : Nat
  last : Nat
  step : Nat := 1

def Run.contains (run : Run) (code : Nat) : Bool :=
  run.first ≤ code && code ≤ run.last && (code - run.first) % run.step == 0

/-- A class of characters, as the runs it is made of. -/
abbrev CharClass := List Run

/-- The class of whole stretches, each given by its first and last code point. -/
def stretches (ends : List (Nat × Nat)) : CharClass :=
  ends.map fun (first, last) => ⟨first, last, 1⟩

def CharClass.contains (runs : CharClass) (c : Char) : Bool :=
  runs.any (·.contains c.toNat)

end SmallLisp.Text
