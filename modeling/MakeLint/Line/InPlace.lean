import MakeLint.Line
import MakeLint.Proofs.Text.Chunks
/-!
# Repair in place

How a line is repaired without a second buffer. The first chunk from an offset on is decoded, its
malformed piece is replaced where it stands, and decoding starts again behind the replacement. The
line may grow as it is repaired; what is left of it to decode shrinks with every chunk.
-/

namespace MakeLint.Line

/-- Replaces so many bytes from an index on by U+FFFD. -/
def splice (index count : Nat) (l : Line) : Line :=
  { l with data := l.data.take index ++ (Utf8.Piece.replacement ++ l.data.drop (index + count)) }

/-- Repairs a line from an offset on, with a finding for each replacement. -/
def repairFrom (off : Nat) (l : Line) : Line × List Finding :=
  if off < l.data.length then
    match _ : (Utf8.chunks (l.data.drop off)).head? with
    | none => (l, [])
    | some c =>
      if c.isMalformed then
        let later := repairFrom (off + c.valid.length + Utf8.Piece.replacement.length)
          (l.splice (off + c.valid.length) c.invalid.length)
        (later.1, l.finding .invalidEncoding :: later.2)
      else
        repairFrom (off + c.valid.length) l
  else
    (l, [])
termination_by l.data.length - off
decreasing_by
  · next hmalformed =>
    have hinvalid : 0 < c.invalid.length := by
      rw [List.length_pos_iff]
      simpa [Utf8.Chunk.isMalformed] using hmalformed
    simp only [splice, List.length_append, List.length_take, List.length_drop]
    omega
  · next hfirst hmalformed =>
    rcases Utf8.first_chunk hfirst with ⟨-, text, htext, hvalid, -⟩ | ⟨hsome, -⟩
    · have hlength : 0 < c.valid.length := by
        rw [List.length_pos_iff, hvalid]
        exact Utf8.encode_ne_nil htext
      omega
    · exact absurd hsome hmalformed

def repairInPlace (l : Line) : Line × List Finding :=
  repairFrom 0 l

end MakeLint.Line
