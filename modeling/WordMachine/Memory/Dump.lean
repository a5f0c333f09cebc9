import WordMachine.Memory

set_option autoImplicit false

/-! # Memory dumps

A dump shows a range of cells in rows. A row ends before an address that is a multiple of ten, so
it holds at most ten cells, and it is labelled with the address of its first cell. A range that
begins off a multiple of ten begins with a short row; that row is there even if the range is
empty. -/

namespace WordMachine

/-- The number of cells in a full row of a dump. -/
def dumpWidth : Nat := 10

/-- A row of a dump: the address of its first cell, and its words. -/
structure DumpRow where
  label : Nat
  cells : List Word
  deriving DecidableEq, Repr

/-- The row as it is shown. -/
def DumpRow.text (row : DumpRow) : String :=
  s!"{Decimal.padded 4 row.label}: " ++ " ".intercalate (row.cells.map (Decimal.padded 5 ·.toInt))

namespace Memory

/-- The rows of the cells from `start` up to but not including `stop`. -/
def dumpRows (m : Memory) (start stop : Nat) : List DumpRow :=
  let first := start - start % dumpWidth
  let count := (stop - first + (dumpWidth - 1)) / dumpWidth
  (List.range count).map fun k =>
    let low := max (first + k * dumpWidth) start
    let high := min (first + k * dumpWidth + dumpWidth) stop
    ⟨low, (m.cells.extract low high).toList⟩

/-- The dump of the cells from `start` up to but not including `stop`, one row on a line. -/
def dumpText (m : Memory) (start stop : Nat) : String :=
  "\n".intercalate ((m.dumpRows start stop).map DumpRow.text)

/-- The dump of `length` cells from an address on, cut off at the end of memory; without a length
    the dump reaches that end. -/
def dump (m : Memory) (start : Int) (length : Option Int) : Except Error String :=
  match m.checkAddress start with
  | .error f => .error (.ofFault f)
  | .ok first =>
    let length := length.getD (m.size - start)
    if length < 0 then .error (.dumpLength length)
    else .ok (m.dumpText first (min (first + length.toNat) m.size))

end Memory

end WordMachine
