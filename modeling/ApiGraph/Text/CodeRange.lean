/-!
# Sets of code points as runs

The character properties of `ApiGraph.Text` are kept as lists of runs, each given by its first and
its last code point.  In a plain run every code point between the two counts, in an alternating one
every second, starting with the first.
-/

namespace ApiGraph.Text

/-- Is the code point inside one of the runs? -/
def inRuns (runs : List (Nat × Nat)) (code : Nat) : Bool :=
  runs.any fun (first, last) => first ≤ code && code ≤ last

/-- Is the code point an even number of steps after the start of one of the runs? -/
def inAlternating (runs : List (Nat × Nat)) (code : Nat) : Bool :=
  runs.any fun (first, last) => first ≤ code && code ≤ last && (code - first) % 2 == 0

end ApiGraph.Text
