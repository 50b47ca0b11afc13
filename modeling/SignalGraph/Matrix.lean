import SignalGraph.Scalar
import SignalGraph.NDArray.Basic

namespace SignalGraph

/-- Rows of equal length, one behind the other. Matrices are made here at any size; a machine has room
for those of fewer than `entryLimit` entries, and stops where one is to have more. -/
structure Matrix (α : Type) where
  nrows : Nat
  ncols : Nat
  data : Vector α (nrows * ncols)

namespace Matrix

variable {α : Type}

def ofFn (m n : Nat) (f : Nat → Nat → α) : Matrix α :=
  ⟨m, n, Vector.ofFn fun p => f (p / n) (p % n)⟩

def entry [Inhabited α] (a : Matrix α) (i j : Nat) : α :=
  if j < a.ncols then (a.data[i * a.ncols + j]?).getD default else default

theorem place_lt {m n i j : Nat} (hi : i < m) (hj : j < n) : i * n + j < m * n :=
  calc i * n + j < i * n + n := Nat.add_lt_add_left hj _
    _ = (i + 1) * n := (Nat.succ_mul i n).symm
    _ ≤ m * n := Nat.mul_le_mul_right n hi

theorem entry_ofFn [Inhabited α] {m n i j : Nat} (f : Nat → Nat → α) (hi : i < m) (hj : j < n) :
    (ofFn m n f).entry i j = f i j := by
  have hp := place_lt hi hj
  have hdiv : (i * n + j) / n = i := by
    rw [Nat.mul_comm, Nat.mul_add_div (Nat.lt_of_le_of_lt (Nat.zero_le j) hj), Nat.div_eq_of_lt hj,
      Nat.add_zero]
  have hmod : (i * n + j) % n = j := by
    rw [Nat.mul_comm, Nat.mul_add_mod, Nat.mod_eq_of_lt hj]
  have hc : j < (ofFn m n f).ncols := hj
  have hd : (ofFn m n f).data[i * n + j]? = some (f i j) := by
    change (Vector.ofFn fun p : Fin (m * n) => f (p / n) (p % n))[i * n + j]? = some (f i j)
    rw [Vector.getElem?_eq_getElem hp, Vector.getElem_ofFn, hdiv, hmod]
  rw [entry, if_pos hc]
  exact congrArg (·.getD default) hd

def row [Inhabited α] (a : Matrix α) (i : Nat) : List α := (List.range a.ncols).map (a.entry i)

def column [Inhabited α] (a : Matrix α) (j : Nat) : List α :=
  (List.range a.nrows).map fun i => a.entry i j

def rows [Inhabited α] (a : Matrix α) : List (List α) := (List.range a.nrows).map a.row

def map (f : α → α) (a : Matrix α) : Matrix α := ⟨a.nrows, a.ncols, a.data.map f⟩

/-- Each row combined entry by entry with the same numbers. -/
def zipRows [Inhabited α] {n : Nat} (f : α → α → α) (a : Matrix α) (v : Vector α n) : Matrix α :=
  ofFn a.nrows a.ncols fun i j => f (a.entry i j) (v[j]?.getD default)

def transpose [Inhabited α] (a : Matrix α) : Matrix α := ofFn a.ncols a.nrows fun i j => a.entry j i

/-- Lists as the rows of a matrix. -/
def ofLists [Inhabited α] (m n : Nat) (rows : List (List α)) : Matrix α :=
  let table := (rows.map List.toArray).toArray
  ofFn m n fun i j => ((table[i]?.bind (·[j]?))).getD default

/-- The shape as a list. -/
def shape (a : Matrix α) : Shape := [a.nrows, a.ncols]

def toNDArray (a : Matrix α) : NDArray α :=
  ⟨a.shape, ⟨a.data.toArray, by simp [shape, Shape.size]⟩⟩

/-- An array with two axes as a matrix. -/
def ofNDArray? (a : NDArray α) : Option (Matrix α) :=
  match a with
  | ⟨[m, n], data⟩ => some ⟨m, n, ⟨data.toArray, by simp [Shape.size]⟩⟩
  | _ => none

/-- Rows as a matrix of `n` columns, refused unless each has that length. -/
def ofRows? (n : Nat) (rows : List (List α)) : Option (Matrix α) :=
  if h : rows.flatten.length = rows.length * n ∧ rows.all (·.length == n) then
    some ⟨rows.length, n, ⟨rows.flatten.toArray, by simpa using h.1⟩⟩
  else none

variable [Scalar α]

def zeros (m n : Nat) : Matrix α := ofFn m n fun _ _ => Scalar.zero

def identity (n : Nat) : Matrix α :=
  ofFn n n fun i j => if i = j then Scalar.one else Scalar.zero

/-- Every entry times a number. -/
def scale (a : Matrix α) (c : α) : Matrix α := a.map (· * c)

/-- One column with the same entry in every row. -/
def constantColumn (m : Nat) (c : α) : Matrix α := ofFn m 1 fun _ _ => c

/-- The rows of the identity at the given indices. -/
def selection (indices : List Nat) (n : Nat) : Matrix α :=
  ofFn indices.length n fun i j => if indices[i]? = some j then Scalar.one else Scalar.zero

/-- The identity of size `n` set in at row `start`, all other rows being zero. -/
def block (m start n : Nat) : Matrix α :=
  ofFn m n fun i j => if i = start + j then Scalar.one else Scalar.zero

/-- The product of two matrices. -/
def mul (a b : Matrix α) : Matrix α :=
  let columns := (List.range b.ncols).map b.column
  ofLists a.nrows b.ncols (a.rows.map fun r => columns.map (Scalar.dot r))

end Matrix

/-- Adds the product of a matrix and a vector to an accumulator. -/
abbrev Kernel (α : Type) := Matrix α → List α → List α → List α

namespace Kernel

variable {α : Type} [Scalar α]

/-- Each row summed up from zero left to right and then added. -/
def sequential : Kernel α := fun a x acc =>
  List.zipWith (fun r s => s + Scalar.dot r x) a.rows acc

/-- The eight running sums after each full block of eight products, and the products that are left. -/
def blockSums : List α → List α → List α × List α
  | sums, a :: b :: c :: d :: e :: f :: g :: h :: rest =>
    blockSums (List.zipWith (· + ·) sums [a, b, c, d, e, f, g, h]) rest
  | sums, rest => (sums, rest)

/-- The products added up in eight interleaved sums, which are then joined in pairs. -/
def blockedDot (r x : List α) : α :=
  match blockSums (List.replicate 8 Scalar.zero) (List.zipWith (· * ·) r x) with
  | ([p0, p1, p2, p3, p4, p5, p6, p7], rest) =>
    (([p0 + p4, p1 + p5, p2 + p6, p3 + p7] : List α) ++ rest).foldl (· + ·) Scalar.zero
  | (_, rest) => rest.foldl (· + ·) Scalar.zero

/-- Each row summed up in eight interleaved sums, the accumulator and the sum both times one. -/
def blocked : Kernel α := fun a x acc =>
  List.zipWith (fun r s => s * Scalar.one + blockedDot r x * Scalar.one) a.rows acc

end Kernel

end SignalGraph
