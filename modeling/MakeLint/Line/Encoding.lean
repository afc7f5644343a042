import MakeLint.Line
import MakeLint.Text.Utf8
/-!
# Encoding

Each malformed sequence in a line is replaced by U+FFFD. Characters are left alone, U+FFFD among
them, so a second repair finds nothing to do.
-/

namespace MakeLint.Line

def repair (l : Line) : Line :=
  { l with data := Utf8.repair l.data }

def encodingFindings (l : Line) : List Finding :=
  List.replicate (Utf8.malformedCount l.data) (l.finding .invalidEncoding)

end MakeLint.Line
