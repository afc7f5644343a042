import MakeLint.Text.Blank
/-!
# Console text

Text for a terminal in which some parts carry a style. The styles are used only when colour is on, so
that a caller builds the same text either way. The time that has passed is known only when the text is
written, so it has a place in the text and not a value. The notation for tags has a backslash that
takes away the meaning of the tag after it.
-/

namespace MakeLint

/-- Text in which parts are tagged with the name of a style. -/
inductive Styled where
  | text (s : String)
  | tagged (tag : String) (body : Styled)
  | append (first second : Styled)
  /-- The time that has passed. -/
  | elapsed

namespace Styled

instance : Append Styled :=
  ⟨append⟩

instance : Coe String Styled :=
  ⟨text⟩

/-- The text in the console's notation for tags. -/
def source : Styled → String
  | text s => s
  | elapsed => ""
  | tagged tag body => "[" ++ tag ++ "]" ++ body.source ++ "[/]"
  | append first second => first.source ++ second.source

/-- The number of a terminal's rendition for a word of a tag. -/
def rendition? : String → Option String
  | "bold" => some "1"
  | "dim" => some "2"
  | "red" => some "31"
  | "green" => some "32"
  | "yellow" => some "33"
  | "blue" => some "34"
  | "cyan" => some "36"
  | _ => none

def renditions (tag : String) : List String :=
  ((Text.splitAll ' ' tag.toList).map String.ofList).filterMap rendition?

def escape (numbers : List String) : String :=
  "\x1b[" ++ String.intercalate ";" numbers ++ "m"

/-- Text as it is written right before a tag, where two backslashes stand for one and a single one
takes the tag's meaning away. -/
def beforeTag (s tag : String) : String :=
  let reversed := s.toList.reverse
  let count := (reversed.takeWhile (· = '\\')).length
  String.ofList (reversed.dropWhile (· = '\\')).reverse ++
    String.ofList (List.replicate (count / 2) '\\') ++ if count % 2 = 1 then tag else ""

/-- Text in a place where a closing tag may follow. -/
def written (closed : Bool) (s : String) : String :=
  if closed then beforeTag s "[/]" else s

/-- The text inside tags with these renditions; `closed` when a closing tag follows at once. -/
def renderIn (time : String) (outer : List String) (closed : Bool) : Styled → String
  | text s => written closed s
  | tagged tag body =>
    let inner := outer ++ renditions tag
    escape inner ++ renderIn time inner true body ++ escape ["0"] ++
      if outer.isEmpty then "" else escape outer
  | append first second => renderIn time outer false first ++ renderIn time outer closed second
  | elapsed => time

def plain (time : String) (closed : Bool) : Styled → String
  | text s => written closed s
  | tagged _ body => body.plain time true
  | append first second => first.plain time false ++ second.plain time closed
  | elapsed => time

/-- A written line; one with escape sequences ends without any rendition. -/
def render (escapes : Bool) (time : String) (s : Styled) : String :=
  if escapes then renderIn time [] false s ++ escape ["0"] else s.plain time false

end Styled

/-- Whether styles are used. -/
structure Paint where
  on : Bool

namespace Paint

def wrap (p : Paint) (tag : String) (body : Styled) : Styled :=
  if p.on then .tagged tag body else body

def header (p : Paint) (body : Styled) : Styled :=
  p.wrap "bold cyan" body

def warn (p : Paint) (body : Styled) : Styled :=
  p.wrap "yellow" body

def success (p : Paint) (body : Styled) : Styled :=
  p.wrap "bold green" body

def dim (p : Paint) (body : Styled) : Styled :=
  p.wrap "dim" body

def label (p : Paint) (body : Styled) : Styled :=
  p.wrap "bold blue" body

def separator (p : Paint) : Styled :=
  p.wrap "dim" "───"

end Paint

end MakeLint
