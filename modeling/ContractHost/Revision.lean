import ContractHost.Fault
import ContractHost.Text.Integer

/-!
# Revisions

A revision names the set of rules that contracts run under.  Revisions are numbered in the order
in which they came into force, and what an engine offers may depend on that order:
`Revision.definesRevert` is the one rule of this kind here.

`Revision.parse` reads a revision from a name in any case, with or without separators, or from its
number.
-/

namespace ContractHost

/-- The set of rules that contracts run under. -/
inductive Revision where
  | frontier
  | homestead
  | tangerineWhistle
  | spuriousDragon
  | byzantium
  | constantinople
  | petersburg
  | istanbul
  | berlin
deriving DecidableEq

namespace Revision

def all : List Revision :=
  [frontier, homestead, tangerineWhistle, spuriousDragon, byzantium, constantinople, petersburg,
    istanbul, berlin]

def latest : Revision := berlin

instance : Inhabited Revision := ⟨byzantium⟩

/-- The place of the revision in the order of time. -/
def number : Revision → Int32
  | frontier => 0
  | homestead => 1
  | tangerineWhistle => 2
  | spuriousDragon => 3
  | byzantium => 4
  | constantinople => 5
  | petersburg => 6
  | istanbul => 7
  | berlin => 8

def name : Revision → String
  | frontier => "Frontier"
  | homestead => "Homestead"
  | tangerineWhistle => "TangerineWhistle"
  | spuriousDragon => "SpuriousDragon"
  | byzantium => "Byzantium"
  | constantinople => "Constantinople"
  | petersburg => "Petersburg"
  | istanbul => "Istanbul"
  | berlin => "Berlin"

/-- The name in lower case, its words joined by underscores. -/
def snakeName : Revision → String
  | frontier => "frontier"
  | homestead => "homestead"
  | tangerineWhistle => "tangerine_whistle"
  | spuriousDragon => "spurious_dragon"
  | byzantium => "byzantium"
  | constantinople => "constantinople"
  | petersburg => "petersburg"
  | istanbul => "istanbul"
  | berlin => "berlin"

/-- Contracts may revert from this revision on. -/
def definesRevert (revision : Revision) : Bool := byzantium.number ≤ revision.number

/-- The revision with a number; an unknown number is a fault. -/
def ofNumber (number : Int32) : Except Fault Revision :=
  match all.find? fun revision => revision.number == number with
  | some revision => .ok revision
  | none => .error (.unknownRevision number)

/-- The letters by which names are compared: no underscores or hyphens, ASCII lower case. -/
def plainLetters (text : String) : List Char :=
  (text.toList.filter fun c => c ≠ '_' ∧ c ≠ '-').map Char.toLower

/-- The revision that a text names.  A text that is a number of 32 bits is never taken as a
name. -/
def parse (text : String) : Except Fault Revision :=
  match Text.int32? text with
  | some number => ofNumber number
  | none =>
    match all.find? fun revision => plainLetters revision.name == plainLetters text with
    | some revision => .ok revision
    | none => .error (.settings (.unknownRevisionName text))

end Revision

end ContractHost
