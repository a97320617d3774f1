import CodeMarkup.Script.Reader
import CodeMarkup.Script.Run

/-!
# Script engines

The program leaves its scripts to an **engine**, and the language is the engine's: there is more to it than is
read here. What the program knows of an engine is how it is used. It is given a script, and either refuses it
before anything runs, or makes of it something to run on a host. That works on the host's state by the
functions of the host alone, so it is the same for hosts with any kind of state. What else a script may look at,
such as modules in other files or the clock, is settled by which engine it is.

The engine here is `Engine.basic`. It reads the part of the language that settings are usually made with, and
it does not say what is wrong with a script that it refuses.
-/

namespace CodeMarkup.Script

/-- Something that reads scripts and runs them. -/
structure Engine where
  /-- what a script does to the state of a host, and how it ends; or what is said of a script that does not
  read well, if anything is -/
  read : String → Except (Option String) (∀ {State : Type}, Host State → State → State × Except Fault Unit)

/-- The engine for the scripts that are read here. -/
def Engine.basic : Engine where
  read script :=
    match read? script with
    | none => .error none
    | some body => .ok fun host state => run host body state

theorem Engine.read_basic_of_none {script : String} (h : read? script = none) :
    Engine.basic.read script = .error none := by
  simp only [basic, h]

theorem Engine.read_basic_of_some {script : String} {body : List Statement} (h : read? script = some body) :
    Engine.basic.read script = .ok fun host state => run host body state := by
  simp only [basic, h]

end CodeMarkup.Script
