import MakeLint.Line.Framing
/-!
# Two scans

How lines are cut out of a buffer. A first scan counts the newlines and puts spaces for NUL bytes, and
where the final newline is missing it is added and counted. A second scan cuts the buffer at every
newline and takes as many pieces as newlines were counted.
-/

namespace MakeLint.Line

/-- What the first scan leaves. -/
structure Scan where
  buffer : Bytes := []
  newlines : Nat := 0
  findings : List Finding := []

namespace Scan

/-- The place of a byte after what has been scanned. -/
def place (path : String) (s : Scan) : Location :=
  { path := path, line := s.newlines + 1 }

def byte (path : String) (s : Scan) (b : UInt8) : Scan :=
  if b = Byte.newline then
    { s with buffer := s.buffer ++ [b], newlines := s.newlines + 1 }
  else if b = Byte.nul then
    { s with
      buffer := s.buffer ++ [Byte.space]
      findings := s.findings ++ [⟨.nulByte, s.place path⟩] }
  else
    { s with buffer := s.buffer ++ [b] }

def bytes (path : String) (s : Scan) (bytes : Bytes) : Scan :=
  bytes.foldl (byte path) s

/-- Adds the final newline where it is missing. -/
def terminate (path : String) (s : Scan) : Scan :=
  if lacksNewline s.buffer then
    ⟨s.buffer ++ [Byte.newline], s.newlines + 1, s.findings ++ [⟨.missingNewline, s.place path⟩]⟩
  else
    s

/-- The second scan. -/
def lines (path : String) (nestLevel : Nat) (s : Scan) : List Line :=
  ((s.buffer.splitOn Byte.newline).take s.newlines).mapIdx fun i data =>
    ⟨data, path, i + 1, i + 1 = s.newlines, nestLevel, .none⟩

end Scan

/-- The lines of a source by the two scans, and what is wrong with their framing. -/
def scan (path : String) (nestLevel : Nat) (bytes : Bytes) : List Line × List Finding :=
  let s := (Scan.bytes path {} bytes).terminate path
  let lines := s.lines path nestLevel
  (lines, s.findings ++ (lines.filter isOverlong).map (·.finding .overlongLine))

end MakeLint.Line
