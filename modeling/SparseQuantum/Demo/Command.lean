import SparseQuantum.Demo.Adder
import SparseQuantum.Demo.Teleport

/-!
The demonstrations as commands: a name and a command line lead to what is printed and to a status.
-/

namespace SparseQuantum.Demo

inductive Command where
  | bell
  | teleport
  | adder
  deriving DecidableEq, Repr

namespace Command

def name : Command → String
  | bell => "bell"
  | teleport => "teleport"
  | adder => "adder"

def ofName? (name : String) : Option Command :=
  [bell, teleport, adder].find? fun command => command.name == name

def report? (command : Command) (settings : Settings) (arguments : List String) :
    Option (Report Unit) :=
  match command with
  | bell => (BellOptions.read arguments).map (bellReport settings)
  | teleport => (TeleportOptions.read arguments).map (teleportReport settings)
  | adder => (AdderOptions.read arguments).map (adderReport settings)

def run? (command : Command) (settings : Settings) (arguments : List String) : Option Outcome :=
  (command.report? settings arguments).map Report.outcome

end Command

def usageStatus : Nat := 2

end SparseQuantum.Demo
