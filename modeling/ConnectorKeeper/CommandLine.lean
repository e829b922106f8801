import ConnectorKeeper.Settings

/-!
# The command line

Settings are chosen by options on the command line and, for those not given
there, by environment variables.  What neither chooses keeps its default.

The words are read in order.  An option takes its value from the same word,
after an equals sign, or from the next word, which must not begin with a hyphen
unless it is one alone.  The value that stands in a word of its own is judged
only when the next option begins or the words end.  So an unknown option wins
over a bad value before it, and a bad value wins over a repeated option.

The word of a command ends the options.  After it only help can be asked for.
After two hyphens no option and no command can follow.
-/

namespace ConnectorKeeper.CommandLine

/-- Why a command line chooses nothing. -/
inductive UsageError where
  /-- Help was asked for. -/
  | helpAsked
  /-- There is no such option, or none can stand here. -/
  | unknownArgument (word : String)
  /-- There is no such command. -/
  | unknownCommand (word : String)
  /-- An option has a value where it takes none. -/
  | unwantedValue (option : String)
  /-- An option has no value, or one that is not among those it can have. -/
  | missingValue (option : String)
  /-- The value of an option cannot be read. -/
  | badValue (option value : String)
  /-- An option is there twice. -/
  | repeated (option : String)
deriving DecidableEq, Repr

/-- The message of an error. -/
def UsageError.message : UsageError → String
  | .helpAsked => "Usage: debezium-operator [OPTIONS] [COMMAND]"
  | .unknownArgument word => s!"error: unexpected argument '{word}' found"
  | .unknownCommand word => s!"error: unrecognized subcommand '{word}'"
  | .unwantedValue option => s!"error: unexpected value for '--{option}' found"
  | .missingValue option => s!"error: '--{option}' has none of the values it can have"
  | .badValue option value => s!"error: invalid value '{value}' for '--{option}'"
  | .repeated option => s!"error: the argument '--{option}' cannot be used multiple times"

/-- What may be wrong with a value. -/
inductive ValueFault where
  /-- It is not among the values that can be. -/
  | notPossible
  /-- It cannot be read. -/
  | unreadable
deriving DecidableEq, Repr

/-- The error of a value of an option. -/
def ValueFault.toError (fault : ValueFault) (option value : String) : UsageError :=
  match fault with
  | .notPossible => .missingValue option
  | .unreadable => .badValue option value

/-! ## Values -/

/-- A value of an option. -/
abbrev Reader (α : Type) := String → Except ValueFault α

namespace Reader

/-- Any text. -/
def text : Reader String := .ok

/-- A path, which is not empty. -/
def path : Reader String := fun s => if s = "" then .error .notPossible else .ok s

/-- A truth value. -/
def truth : Reader Bool
  | "true" => .ok true
  | "false" => .ok false
  | _ => .error .notPossible

/-- A reader from one that does not say what is wrong. -/
def ofOption {α : Type} (read : String → Option α) : Reader α := fun s =>
  match read s with
  | some a => .ok a
  | none => .error .unreadable

/-- A socket address. -/
def address : Reader Net.SocketAddress := ofOption Net.SocketAddress.parse?

/-- Digits after a sign that may be there. -/
def unsigned? (limit : Nat) (s : String) : Option Nat :=
  match s.toList with
  | '+' :: ds => Net.boundedNumber? limit ds
  | ds => Net.boundedNumber? limit ds

/-- A number below 2 ^ 16, which may have a sign. -/
def uint16 : Reader UInt16 := ofOption fun s =>
  match s.toList with
  | '-' :: ds => (Net.boundedNumber? 1 ds).map UInt16.ofNat
  | _ => (unsigned? 0x1_0000 s).map UInt16.ofNat

/-- A number below 2 ^ 64, which may have a plus sign. -/
def uint64 : Reader UInt64 := ofOption fun s => (unsigned? 0x1_0000_0000_0000_0000 s).map UInt64.ofNat

end Reader

/-! ## Options -/

/-- An option. -/
structure Opt where
  /-- Its name on the command line, without the hyphens. -/
  name : String
  /-- The environment variable that stands in for it. -/
  envName : String
  /-- Whether a value belongs to it on the command line. -/
  takesValue : Bool
  /-- The settings with a value chosen. -/
  choose : String → Settings → Except ValueFault Settings

/-- An option with a value. -/
def valued {α : Type} (name envName : String) (read : Reader α)
    (set : Settings → α → Settings) : Opt :=
  ⟨name, envName, true, fun value s => (read value).map (set s)⟩

/-- An option that is given or not. -/
def flag (name envName : String) (set : Settings → Bool → Settings) : Opt :=
  ⟨name, envName, false, fun value s => (Reader.truth value).map (set s)⟩

/-- All options. -/
def options : List Opt :=
  [valued "health-probe-bind-address" "HEALTH_PROBE_BIND_ADDRESS" .address
      fun s v => { s with probeAddress := v },
    valued "metrics-bind-address" "METRICS_BIND_ADDRESS" .text
      fun s v => { s with metricsAddress := v },
    flag "metrics-secure" "METRICS_SECURE" fun s v => { s with metricsSecure := v },
    valued "webhook-port" "WEBHOOK_PORT" .uint16 fun s v => { s with webhookPort := v },
    valued "cert-dir" "CERT_DIR" .path fun s v => { s with certificateDirectory := v },
    valued "webhook-service-name" "WEBHOOK_SERVICE_NAME" .text
      fun s v => { s with serviceName := v },
    valued "namespace" "POD_NAMESPACE" .text fun s v => { s with namespaceName := v },
    valued "tls-secret-name" "TLS_SECRET_NAME" .text fun s v => { s with secretName := v },
    valued "webhook-name" "WEBHOOK_NAME" .text fun s v => { s with webhookName := v },
    valued "webhook-config-name" "WEBHOOK_CONFIG_NAME" .text
      fun s v => { s with webhookConfigName := v },
    flag "enable-http2" "ENABLE_HTTP2" fun s v => { s with http2 := v },
    flag "leader-elect" "LEADER_ELECT" fun s v => { s with electsLeader := v },
    valued "lease-name" "LEADER_ELECTION_LEASE_NAME" .text fun s v => { s with leaseName := v },
    valued "pod-name" "POD_NAME" .text fun s v => { s with podName := some v },
    valued "lease-duration-secs" "LEADER_ELECTION_LEASE_DURATION" .uint64
      fun s v => { s with leaseSeconds := v },
    valued "renew-interval-secs" "LEADER_ELECTION_RENEW_INTERVAL" .uint64
      fun s v => { s with renewSeconds := v },
    valued "connect-timeout-secs" "CONNECT_TIMEOUT_SECS" .uint64
      fun s v => { s with connectSeconds := v },
    valued "resync-interval-secs" "RESYNC_INTERVAL_SECS" .uint64
      fun s v => { s with resyncSeconds := v },
    valued "max-concurrent-reconciles" "MAX_CONCURRENT_RECONCILES" .uint16
      fun s v => { s with concurrency := v }]

/-- The commands by their words. -/
def commands : List (String × Command) := [("run", .run), ("crd", .crd)]

/-- The word that asks for help on commands. -/
def helpWord : String := "help"

/-- The line of an option in the help. -/
def Opt.helpLine (o : Opt) : String :=
  let value := if o.takesValue then " <VALUE>" else ""
  s!"  --{o.name}{value} [env: {o.envName}]"

/-- What is printed when help is asked for. -/
def helpText : String :=
  "\n".intercalate ([UsageError.helpAsked.message, "", "Commands:"] ++
    (commands.map (·.1) ++ [helpWord]).map ("  " ++ ·) ++ ["", "Options:"] ++ options.map Opt.helpLine) ++ "\n"

/-- Whether a word could stand for a command. -/
def isCommandWord (word : String) : Bool := word = helpWord || (commands.lookup word).isSome

/-! ## Words -/

/-- What a word can be by its first characters. -/
inductive Word where
  /-- Two hyphens, the name of an option, and a value after an equals sign. -/
  | long (name : String) (value : Option String)
  /-- A hyphen and a letter. -/
  | short (letter : Char)
  /-- Two hyphens alone. -/
  | endOfOptions
  /-- Any other word. -/
  | plain
deriving DecidableEq, Repr

/-- What a word is by its first characters. -/
def Word.of (word : String) : Word :=
  match word.toList with
  | ['-', '-'] => .endOfOptions
  | '-' :: '-' :: rest =>
      let name := String.ofList (rest.takeWhile (· ≠ '='))
      match rest.dropWhile (· ≠ '=') with
      | [] => .long name none
      | _ :: value => .long name (some (String.ofList value))
  | '-' :: letter :: _ => .short letter
  | _ => .plain

/-- The option that asks for help. -/
def helpOption : String := "help"

/-- The letter that asks for help. -/
def helpLetter : Char := 'h'

/-! ## Reading -/

/-- An option whose value was not judged yet. -/
structure Pending where
  /-- The option. -/
  option : Opt
  /-- Its value, if it has come. -/
  value : Option String

/-- What the words read so far have chosen. -/
structure Reading where
  /-- The settings. -/
  settings : Settings
  /-- The names of the options that were judged. -/
  given : List String
  /-- The option that was not. -/
  pending : Option Pending

namespace Reading

/-- Nothing chosen. -/
def start : Reading := ⟨{}, [], none⟩

/-- Whether the next word is a value. -/
def awaitsValue (r : Reading) : Bool := r.pending.any (·.value.isNone)

/-- A value is chosen for an option that was not given before. -/
def choose (r : Reading) (option : Opt) (value : String) : Except UsageError Reading :=
  if r.given.contains option.name then .error (.repeated option.name)
  else match option.choose value r.settings with
    | .ok settings => .ok ⟨settings, option.name :: r.given, none⟩
    | .error fault => .error (fault.toError option.name value)

/-- The option that was not judged is judged. -/
def settle (r : Reading) : Except UsageError Reading :=
  match r.pending with
  | none => .ok r
  | some ⟨option, none⟩ => .error (.missingValue option.name)
  | some ⟨option, some value⟩ => r.choose option value

/-- Help is asked for. -/
def help (r : Reading) : Except UsageError Reading := do
  let _ ← r.settle
  .error .helpAsked

/-- An option begins. -/
def takeUp (r : Reading) (option : Opt) (value : Option String) : Except UsageError Reading := do
  match option.takesValue, value with
  | true, none => return { ← r.settle with pending := some ⟨option, none⟩ }
  | true, some value => (← r.settle).choose option value
  | false, none => (← r.settle).choose option "true"
  | false, some _ => .error (.unwantedValue option.name)

/-- A word with hyphens: an option or a call for help. -/
def long (r : Reading) (name : String) (value : Option String) : Except UsageError Reading :=
  if name = helpOption then
    match value with
    | none => r.help
    | some _ => .error (.unwantedValue name)
  else match options.find? (·.name = name) with
    | some option => r.takeUp option value
    | none => .error (.unknownArgument ("--" ++ name))

/-- A word with one hyphen. -/
def short (r : Reading) (letter : Char) : Except UsageError Reading :=
  if letter = helpLetter then r.help else .error (.unknownArgument ("-" ++ letter.toString))

/-- The words after two hyphens: none can stand there. -/
def afterOptions (r : Reading) : List String → Except UsageError Reading
  | [] => r.settle
  | word :: _ =>
      .error (if isCommandWord word then .unknownArgument word else .unknownCommand word)

/-- The words after that of a command: only help can be asked for. -/
def checkCommand : List String → Except UsageError Unit
  | [] => .ok ()
  | word :: rest =>
      match Word.of word with
      | .long name none => .error (if name = helpOption then .helpAsked else .unknownArgument word)
      | .long name (some _) =>
          .error (if name = helpOption then .unwantedValue name else .unknownArgument word)
      | .short letter =>
          .error (if letter = helpLetter then .helpAsked else .unknownArgument word)
      | .endOfOptions =>
          match rest with
          | [] => .ok ()
          | word :: _ => .error (.unknownArgument word)
      | .plain => .error (.unknownArgument word)

/-- The words after the one that asks for help on commands. -/
def commandHelp : List String → UsageError
  | [] => .helpAsked
  | [word] => if isCommandWord word then .helpAsked else .unknownCommand word
  | word :: next :: _ => .unknownCommand (if isCommandWord word then next else word)

/-- Reads the words. -/
def words (r : Reading) : List String → Except UsageError Reading
  | [] => r.settle
  | word :: rest =>
      if !r.awaitsValue && word = helpWord then .error (commandHelp rest)
      else match if r.awaitsValue then none else commands.lookup word with
        | some command => do
            checkCommand rest
            let r ← r.settle
            return { r with settings := { r.settings with command := some command } }
        | none =>
            match Word.of word with
            | .endOfOptions => r.afterOptions rest
            | .long name value => do (← r.long name value).words rest
            | .short letter => do (← r.short letter).words rest
            | .plain =>
                match r.pending with
                | some ⟨option, none⟩ =>
                    { r with pending := some ⟨option, some word⟩ }.words rest
                | _ => .error (.unknownCommand word)

/-- The options that were not given are chosen by the environment. -/
def environment (r : Reading) (env : String → Option String) : Except UsageError Reading :=
  options.foldlM
    (fun r option =>
      if r.given.contains option.name then .ok r
      else match env option.envName with
        | some value => r.choose option value
        | none => .ok r)
    r

end Reading

/-- The settings that a command line and an environment choose. -/
def settings (env : String → Option String) (words : List String) : Except UsageError Settings := do
  let r ← Reading.start.words words
  let r ← r.environment env
  return r.settings

end ConnectorKeeper.CommandLine
