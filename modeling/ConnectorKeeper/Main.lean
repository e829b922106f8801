import ConnectorKeeper.Startup

/-!
# The program

Reads the command line and the environment, prints, and ends with a status.
-/

open ConnectorKeeper

/-- The values of the environment variables that options look at. -/
def readEnvironment : IO (List (String × String)) :=
  CommandLine.options.filterMapM fun option => do
    return (← IO.getEnv option.envName).map (option.envName, ·)

/-- Runs the program. -/
def main (words : List String) : IO UInt32 := do
  let environment ← readEnvironment
  let ending := (Startup.Start.of (environment.lookup ·) words).ending
  IO.print ending.output
  unless ending.error.isEmpty do
    IO.eprintln ending.error
  return ending.status.toUInt32
