import MakeLint.Text.Blank
import MakeLint.Warning.Class
/-!
# Overrides

The argument `CLASS` or `CLASS=ACTION` gives one class a new action. White space around either part
is dropped; a class name is written exactly, an action name in any ASCII case; a class on its own is
set to warn.
-/

namespace MakeLint

structure Override where
  cls : WarningClass
  action : Action
  deriving DecidableEq

namespace Override

inductive Error where
  | unknownClass (name : String)
  | unknownAction (name : String)
  deriving DecidableEq

def Error.message : Error → String
  | unknownClass name =>
    "unknown warning class '" ++ name ++ "' (run `makel classes` for the list)"
  | unknownAction name => "unknown action '" ++ name ++ "' (ignore|inform|style|warn)"

def lower (cs : List Char) : List Char :=
  cs.map Char.toLower

/-- The action with this name, whatever the case of its ASCII letters. -/
def action? (name : List Char) : Option Action :=
  Action.all.find? fun a => lower a.name.toList = lower name

/-- The written class, and the written action if there is one, each without surrounding white
space. -/
def parts (arg : List Char) : List Char × Option (List Char) :=
  match Text.splitFirst? '=' arg with
  | none => (Text.trim arg, none)
  | some (cls, action) => (Text.trim cls, some (Text.trim action))

def parse (arg : String) : Except Error Override :=
  let (name, written) := parts arg.toList
  match WarningClass.ofName? (String.ofList name) with
  | none => .error (.unknownClass (String.ofList name))
  | some cls =>
    match written with
    | none => .ok ⟨cls, .warn⟩
    | some action =>
      match action? action with
      | none => .error (.unknownAction (String.ofList action))
      | some a => .ok ⟨cls, a⟩

end Override

end MakeLint
