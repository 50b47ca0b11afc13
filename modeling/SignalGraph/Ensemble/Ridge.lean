import SignalGraph.Matrix

namespace SignalGraph.Ridge

variable {α : Type} [Scalar α]

/-- The next row of the factor up to the diagonal: `rows` are the rows before it, `entries` the row of
the matrix, `row` what is computed of the new row. -/
def extendRow (row : List α) : (rows : List (List α)) → (entries : List α) → List α
  | [], _ => row
  | _, [] => row
  | r :: rows, a :: entries =>
    let pivot := r.getLast?.getD default
    extendRow (row ++ [Scalar.subProducts a row r / pivot]) rows entries

/-- The rows of the lower triangular factor of a symmetric matrix, each up to its diagonal entry;
nothing unless the matrix is positive definite. -/
def factorFrom (rows : List (List α)) : List (List α) → Option (List (List α))
  | [] => some rows
  | a :: rest =>
    let row := extendRow [] rows a
    let diagonal := Scalar.subProducts ((a[rows.length]?).getD default) row row
    if Scalar.less Scalar.zero diagonal then
      factorFrom (rows ++ [row ++ [Scalar.sqrt diagonal]]) rest
    else none

def factor (a : List (List α)) : Option (List (List α)) := factorFrom [] a

/-- Forward substitution: `z` are the unknowns of the rows before. -/
def forward (z : List α) : (rows : List (List α)) → (b : List α) → List α
  | r :: rows, x :: b =>
    forward (z ++ [Scalar.subProducts x z r / r.getLast?.getD default]) rows b
  | _, _ => z

/-- The columns of a lower triangle, each from its diagonal entry down. -/
def columns : Nat → List (List α) → List (List α)
  | 0, _ => []
  | n + 1, rows => rows.filterMap List.head? :: columns n (rows.tail.map List.tail)

/-- Backward substitution over the columns of the factor. -/
def backward : (columns : List (List α)) → (z : List α) → List α
  | (d :: below) :: rest, z :: zs =>
    let xs := backward rest zs
    Scalar.subProducts z below xs / d :: xs
  | _, _ => []

/-- The solution of the system whose matrix has this factor. -/
def substitute (rows : List (List α)) (b : List α) : List α :=
  backward (columns rows.length rows) (forward [] rows b)

/-- How much of the largest activity counts as noise. -/
def noise : α := Scalar.ratio 1 10

/-- The decoders of `targets` from `activities`, both with one row per evaluation point: the solution
of the normal equations with the noise on their diagonal. Nothing where no neuron is active. -/
def solve (activities targets : Matrix α) : Option (Matrix α) :=
  let peak := activities.data.toList.foldl Scalar.larger Scalar.zero
  if Scalar.atMost peak Scalar.zero then none
  else
    let sigma := noise * peak
    let ridge := Scalar.ofNat activities.nrows * sigma * sigma
    let tuning := (List.range activities.ncols).map activities.column
    let gram := tuning.mapIdx fun i x => tuning.mapIdx fun j y =>
      let g := Scalar.dot x y
      if i = j then g + ridge else g
    (factor gram).map fun rows =>
      let decoders := (List.range targets.ncols).map fun k =>
        let target := targets.column k
        (substitute rows (tuning.map (Scalar.dot · target))).toArray
      let table := decoders.toArray
      .ofFn activities.ncols targets.ncols fun i k => ((table[k]?.bind (·[i]?))).getD default

end SignalGraph.Ridge
