import MakeLint.Line
/-!
# Framing

How bytes become numbered lines. A NUL byte is read as a space and a missing final newline is
supplied, each with a finding; then every segment that ends at a newline is a line.
-/

namespace MakeLint.Line

/-- The line numbers at which NUL bytes stand, one for each, where the first byte is on line `n`. -/
def nulLines (n : Nat) : Bytes → List Nat
  | [] => []
  | b :: rest =>
    if b = Byte.newline then nulLines (n + 1) rest
    else if b = Byte.nul then n :: nulLines n rest
    else nulLines n rest

def withoutNul (bytes : Bytes) : Bytes :=
  bytes.map fun b => if b = Byte.nul then Byte.space else b

def lacksNewline (bytes : Bytes) : Bool :=
  match bytes.getLast? with
  | none => false
  | some b => b ≠ Byte.newline

/-- The segments as lines numbered from `n`; the last one is marked. -/
def numbered (path : String) (nestLevel : Nat) (n : Nat) : List Bytes → List Line
  | [] => []
  | data :: rest =>
    ⟨data, path, n, rest.isEmpty, nestLevel, .none⟩ :: numbered path nestLevel (n + 1) rest

/-- The lines of a source. -/
def ofBytes (path : String) (nestLevel : Nat) (bytes : Bytes) : List Line :=
  numbered path nestLevel 1 (withoutNul bytes).segments

def isOverlong (l : Line) : Bool :=
  l.data.length + 1 > Defect.lineMax

/-- What is wrong with the framing: NUL bytes, then the missing newline, then the overlong lines. -/
def framingFindings (path : String) (bytes : Bytes) (lines : List Line) : List Finding :=
  (nulLines 1 bytes).map (fun n => ⟨.nulByte, { path := path, line := n }⟩) ++
  (if lacksNewline bytes then [⟨.missingNewline, { path := path, line := lines.length }⟩] else []) ++
  (lines.filter isOverlong).map (·.finding .overlongLine)

end MakeLint.Line
