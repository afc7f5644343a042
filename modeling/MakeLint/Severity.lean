/-!
# Severity

How strongly a diagnostic counts, in increasing order. The rank of the worst severity a run has
reached is its exit status, and a run that has reached none exits with 0.
-/

namespace MakeLint

inductive Severity where
  | style
  | confusing
  | warning
  | unspecified
  | nonconforming
  | undefined
  | critical
  deriving DecidableEq

namespace Severity

def all : List Severity :=
  [style, confusing, warning, unspecified, nonconforming, undefined, critical]

def rank : Severity → Nat
  | style => 1
  | confusing => 2
  | warning => 3
  | unspecified => 4
  | nonconforming => 5
  | undefined => 6
  | critical => 7

def name : Severity → String
  | style => "style"
  | confusing => "confusing"
  | warning => "warning"
  | unspecified => "unspecified"
  | nonconforming => "nonconforming"
  | undefined => "undefined"
  | critical => "critical"

def ofName? (name : String) : Option Severity :=
  all.find? (·.name == name)

def worse (a b : Severity) : Severity :=
  if a.rank ≤ b.rank then b else a

/-- The worse of two outcomes, where no severity is better than any. -/
def worst (a b : Option Severity) : Option Severity :=
  Option.merge worse a b

def worstOf (outcomes : List (Option Severity)) : Option Severity :=
  outcomes.foldl worst none

def exitStatus : Option Severity → Nat
  | none => 0
  | some s => s.rank

end Severity

end MakeLint
