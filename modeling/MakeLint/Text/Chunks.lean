import MakeLint.Text.Utf8
/-!
# Chunks of UTF-8

Bytes are decoded in chunks: as many characters as follow one another, and the malformed piece that
ends them unless the bytes end first.
-/

namespace MakeLint.Utf8

structure Chunk where
  valid : Bytes
  invalid : Bytes
  deriving DecidableEq

namespace Chunk

/-- A character before the first of the chunks, or a chunk of its own if there is none. -/
def prepend (bytes : Bytes) : List Chunk → List Chunk
  | [] => [⟨bytes, []⟩]
  | c :: more => ⟨bytes ++ c.valid, c.invalid⟩ :: more

def ofPieces : List Piece → List Chunk
  | [] => []
  | .character bytes :: rest => prepend bytes (ofPieces rest)
  | .malformed bytes :: rest => ⟨[], bytes⟩ :: ofPieces rest

def isMalformed (c : Chunk) : Bool :=
  !c.invalid.isEmpty

/-- U+FFFD stands for the malformed piece. -/
def repaired (c : Chunk) : Bytes :=
  if c.isMalformed then c.valid ++ Piece.replacement else c.valid

end Chunk

def chunks (bytes : Bytes) : List Chunk :=
  Chunk.ofPieces (pieces bytes)

end MakeLint.Utf8
