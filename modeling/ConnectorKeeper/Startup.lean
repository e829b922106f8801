import ConnectorKeeper.CommandLine
import ConnectorKeeper.Json.Yaml
import ConnectorKeeper.Record.Definition

/-!
# Starting

What a run of the program comes to by its command line and environment alone.
It ends there if help or the definition of the kind of records is asked for or
if the settings are wrong.  Otherwise it goes on to connect to the API server.
-/

namespace ConnectorKeeper.Startup

open CommandLine (UsageError)

/-- What a run comes to. -/
inductive Start where
  /-- The command line is wrong, or help is asked for. -/
  | usage (error : UsageError)
  /-- A text is printed. -/
  | print (text : String)
  /-- The settings do not fit together. -/
  | unfit (error : SettingsError)
  /-- Connectors are to be kept, with metrics told at the address if there is
  one. -/
  | keep (settings : Settings) (metrics : Option Net.SocketAddress)

/-- What a run with these settings comes to. -/
def Start.ofSettings (s : Settings) : Start :=
  if s.command = some .crd then .print Definition.manifest.yaml
  else match s.metricsListener with
    | .error e => .unfit e
    | .ok metrics => .keep s metrics

/-- What a run comes to. -/
def Start.of (env : String → Option String) (words : List String) : Start :=
  match CommandLine.settings env words with
  | .error e => .usage e
  | .ok s => .ofSettings s

/-- How a run ends. -/
structure Ending where
  /-- The exit status. -/
  status : UInt8
  /-- What is printed. -/
  output : String := ""
  /-- What is printed as an error. -/
  error : String := ""
deriving DecidableEq

/-- The error of a run that cannot reach an API server. -/
def unreachable : String := "Failed to create Kubernetes client"

/-- A run that fails. -/
def Ending.failure (message : String) : Ending := ⟨1, "", "Error: " ++ message⟩

/-- How a run ends where no API server can be reached. -/
def Start.ending : Start → Ending
  | .usage .helpAsked => ⟨0, CommandLine.helpText, ""⟩
  | .usage e => ⟨2, "", e.message⟩
  | .print text => ⟨0, text, ""⟩
  | .unfit e => .failure e.message
  | .keep .. => .failure unreachable

end ConnectorKeeper.Startup
