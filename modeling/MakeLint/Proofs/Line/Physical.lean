import MakeLint.Line.Encoding
import MakeLint.Proofs.Line.Continuation
import MakeLint.Proofs.Line.Framing
import MakeLint.Proofs.Text.Alike
/-!
# Physical lines

The physical lines of a source are what stands between its newlines. A loaded line holds the one at its
number, with spaces for its NUL bytes, and the repair changes no byte of ASCII: so a line ends in a
backslash, or consists of one, exactly if the physical line does.
-/

namespace MakeLint

/-- No other text is like a single byte of ASCII. -/
theorem Bytes.Alike.eq_singleton {xs : Bytes} {b : UInt8} (h : Alike xs [b]) (hb : b < 0x80) :
    xs = [b] := by
  have hhead : xs.head? = some b := (h.head?_iff hb).mpr rfl
  obtain ⟨rest, rfl⟩ := List.head?_eq_some_iff.mp hhead
  have hrest : rest.isEmpty = true := (h.tail hb hhead).isEmpty_eq
  rw [List.isEmpty_iff.mp hrest]

namespace Line

open Bytes

theorem endsInBackslash_withoutNul (bytes : Bytes) :
    EndsInBackslash (withoutNul bytes) ↔ EndsInBackslash bytes := by
  rw [EndsInBackslash, withoutNul, List.getLast?_map, EndsInBackslash]
  cases bytes.getLast? with
  | none => rfl
  | some b =>
    rw [Option.map_some, Option.some_inj, Option.some_inj]
    split
    · next h =>
      subst h
      decide
    · rfl

theorem ends_repair (l : Line) : EndsInBackslash l.repair.data ↔ EndsInBackslash l.data :=
  ((Utf8.alike_repair l.data).getLast?_iff (by decide)).symm

theorem eq_backslash_of_withoutNul {bytes : Bytes} (h : withoutNul bytes = [Byte.backslash]) :
    bytes = [Byte.backslash] := by
  obtain ⟨b, rfl, hb⟩ := List.map_eq_singleton_iff.mp h
  split at hb
  · cases hb
  · rw [hb]

theorem eq_backslash_of_repair {l : Line} (h : l.repair.data = [Byte.backslash]) :
    l.data = [Byte.backslash] := by
  have halike : Alike l.data l.repair.data := Utf8.alike_repair l.data
  rw [h] at halike
  exact halike.eq_singleton (by decide)

/-- A loaded line holds the physical line at its number. -/
theorem exists_physical {path : String} {nestLevel i : Nat} {bytes : Bytes} {l : Line}
    (h : (ofBytes path nestLevel bytes)[i]? = some l) :
    ∃ text, (bytes.splitOn Byte.newline)[i]? = some text ∧ l.data = withoutNul text ∧
      l.location = { path := path, line := i + 1 } := by
  rw [getElem?_ofBytes] at h
  obtain ⟨text, htext, rfl⟩ := Option.map_eq_some_iff.mp h
  obtain ⟨more, hmore⟩ := segments_isPrefix bytes
  refine ⟨text, ?_, rfl, rfl⟩
  rw [← hmore, List.getElem?_append_left (List.getElem?_eq_some_iff.mp htext).1]
  exact htext

end Line

end MakeLint
