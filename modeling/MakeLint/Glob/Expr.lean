import MakeLint.Text.Bytes
/-!
# Byte expressions

Regular expressions over bytes in which only a single byte may be repeated, which is all that globs
need. Matching keeps a mark for every place in the bytes that has been reached and moves all marks
together, so that it takes no longer than the expression times the bytes.
-/

namespace MakeLint.Glob

inductive Expr where
  | empty
  | one (test : UInt8 → Bool)
  | many (test : UInt8 → Bool)
  | seq (first second : Expr)
  | either (first second : Expr)

/-- For each place in the bytes, the one after the last byte included, whether it is reached. -/
abbrev Marks := List Bool

namespace Marks

/-- Only the place before all bytes. -/
def start (bytes : Bytes) : Marks :=
  true :: bytes.map fun _ => false

/-- The places one byte further on, over bytes that pass the test. -/
def step (test : UInt8 → Bool) (bytes : Bytes) (marks : Marks) : Marks :=
  false :: List.zipWith (fun b m => m && test b) bytes marks

/-- The places any number of bytes further on; `reached` when the first place is. -/
def spread (test : UInt8 → Bool) (reached : Bool) : Bytes → Marks → Marks
  | _, [] => []
  | [], m :: _ => [reached || m]
  | b :: bytes, m :: marks =>
    (reached || m) :: spread test ((reached || m) && test b) bytes marks

end Marks

namespace Expr

/-- The places that a match leads to from the marked ones. -/
def reach (bytes : Bytes) : Expr → Marks → Marks
  | empty, marks => marks
  | one test, marks => Marks.step test bytes marks
  | many test, marks => Marks.spread test false bytes marks
  | seq e f, marks => f.reach bytes (e.reach bytes marks)
  | either e f, marks => List.zipWith (· || ·) (e.reach bytes marks) (f.reach bytes marks)

def accepts (e : Expr) (bytes : Bytes) : Bool :=
  (e.reach bytes (Marks.start bytes)).getLast? = some true

def exactly (bytes : Bytes) : Expr :=
  bytes.foldr (fun b e => .seq (.one (· == b)) e) .empty

def slash : Expr :=
  .one (· == Byte.slash)

def anything : Expr :=
  .many fun _ => true

end Expr

end MakeLint.Glob
