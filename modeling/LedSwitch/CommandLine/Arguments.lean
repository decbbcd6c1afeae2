import LedSwitch.Control
import LedSwitch.Text.Similarity

/-!
The arguments of the program. Options may stand before the command and after it; each of the two places is read
and checked on its own, the place after the command first, and an option given after the command counts for more
than one before it. `Invocation.ofArguments` gives what is to be done, or a `Verdict` that ends the program at
once. In which order the parameters of a place are checked is left open (`CheckOrder`), so with several faults at
one place the arguments do not say which of them is named.
-/

namespace LedSwitch

/-- What the program is told to do. -/
inductive Command where
  /-- Tell the node the stored value again. -/
  | restore
  /-- Click the checkbox. -/
  | set (checked : Bool)
  /-- Print the state of checkbox and node. -/
  | show
  deriving DecidableEq, Repr

/-- A complete call of the program. -/
structure Invocation where
  node : String
  preferences : String
  /-- The log goes to the standard output and not to the log of the system. -/
  logToOutput : Bool
  command : Command
  deriving DecidableEq, Repr

namespace CommandLine

/-- The preferences file, unless another one is given. -/
def defaultPreferences : String := "/var/lib/chargingled/prefs.toml"

/-- A place for options: before the command, or after one of the commands. -/
inductive Place where
  | top
  | restore
  | set
  | show
  deriving DecidableEq, Repr

/-- The commands by name. -/
def commands : List (String × Place) := [("restore", .restore), ("set", .set), ("show", .show)]

/-- The words that are understood in place of a command. -/
def commandWords : List String := "help" :: commands.map (·.1)

/-- An option that takes a value. -/
inductive Valued where
  | node
  | preferences
  deriving DecidableEq, Repr

/-- An option, or the state to be set. -/
inductive Parameter where
  | valued (option : Valued)
  | logStd
  | state
  deriving DecidableEq, Repr

namespace Parameter

/-- How messages name a parameter. -/
def usage : Parameter → String
  | .valued .node => "--node <node>"
  | .valued .preferences => "--prefs <prefs>"
  | .logStd => "--logStd"
  | .state => "<state>"

/-- All parameters, in the order in which they are declared. -/
def all : List Parameter := [.valued .node, .valued .preferences, .logStd, .state]

end Parameter

/-- An order in which the parameters of a place may be checked. -/
structure CheckOrder where
  parameters : List Parameter
  perm : parameters.Perm Parameter.all

/-- The order in which the parameters are declared. -/
def CheckOrder.declared : CheckOrder := ⟨Parameter.all, .refl _⟩

/-- What is wrong with the arguments. -/
inductive Complaint where
  /-- The state to be set is neither `on` nor `off`. -/
  | badState (value : String)
  | missingState
  /-- An argument, or the option in it, is not known at its place. -/
  | unexpected (argument : String)
  | missingValue (parameter : Parameter)
  | repeated (parameter : Parameter)
  /-- A word in place of a command that is none, but is like one or was asked about. -/
  | unknownCommand (word : String)
  deriving DecidableEq, Repr

/-- The first line of the message about a complaint. -/
def Complaint.message : Complaint → String
  | .badState value => "error: '" ++ value ++ "' isn't a valid value for '" ++ Parameter.state.usage ++ "'"
  | .missingState => "error: The following required arguments were not provided:"
  | .unexpected argument =>
    "error: Found argument '" ++ argument ++ "' which wasn't expected, or isn't valid in this context"
  | .missingValue parameter =>
    "error: The argument '" ++ parameter.usage ++ "' requires a value but none was supplied"
  | .repeated parameter =>
    "error: The argument '" ++ parameter.usage
      ++ "' was provided more than once, but cannot be used multiple times"
  | .unknownCommand word => "error: The subcommand '" ++ word ++ "' wasn't recognized"

/-- What there is help about. -/
inductive Topic where
  | place (place : Place)
  /-- The help command itself. -/
  | help
  deriving DecidableEq, Repr

/-- Why the program ends without doing anything. -/
inductive Verdict where
  | help (topic : Topic)
  | version
  | rejected (complaint : Complaint)
  deriving DecidableEq, Repr

/-- How often an option was given, and with which values. -/
structure Occurrences where
  count : Nat := 0
  values : List String := []
  deriving DecidableEq, Repr

/-- What was given at one place. -/
structure Given where
  node : Occurrences := {}
  preferences : Occurrences := {}
  logStd : Nat := 0
  state : List String := []
  deriving DecidableEq, Repr

namespace Given

/-- What was given of an option. -/
def occurrences (given : Given) : Valued → Occurrences
  | .node => given.node
  | .preferences => given.preferences

/-- The option was given once more. -/
def count (given : Given) : Valued → Given
  | .node => { given with node := ⟨given.node.count + 1, given.node.values⟩ }
  | .preferences => { given with preferences := ⟨given.preferences.count + 1, given.preferences.values⟩ }

/-- The option got a value. -/
def addValue (given : Given) (value : String) : Valued → Given
  | .node => { given with node := ⟨given.node.count, given.node.values ++ [value]⟩ }
  | .preferences =>
    { given with preferences := ⟨given.preferences.count, given.preferences.values ++ [value]⟩ }

end Given

/-- How far the reading of a place has come. -/
structure Progress where
  given : Given := {}
  /-- The option whose value has to come next. -/
  pending : Option Valued := none
  /-- A `--` was read, so what follows is neither a command nor an option. -/
  literal : Bool := false
  deriving DecidableEq, Repr

/-- An option with what is attached to it, without the equals signs at its beginning; with nothing attached, its
    value is the next argument. -/
def Progress.give (progress : Progress) (option : Valued) (attached : Option (List Char)) : Progress :=
  match attached with
  | none => { progress with given := progress.given.count option, pending := some option }
  | some text =>
    let value := String.ofList (text.dropWhile (· = '='))
    { progress with given := (progress.given.addValue value option).count option, pending := none }

/-- The flag that sends the log to the standard output. -/
def Progress.giveLogStd (progress : Progress) : Progress :=
  { progress with given := { progress.given with logStd := progress.given.logStd + 1 }, pending := none }

/-- Refuses an argument. -/
def refuse {α : Type} (complaint : Complaint) : Except Verdict α := .error (.rejected complaint)

/-- Reads an argument that begins with two hyphens. What follows an equals sign is the value of an option, and
    means nothing with a flag. -/
def readLong (place : Place) (argument : List Char) (progress : Progress) : Except Verdict Progress :=
  let text := argument.dropWhile (· = '-')
  let name := String.ofList (text.takeWhile (· ≠ '='))
  let attached := if '=' ∈ text then some ((text.dropWhile (· ≠ '=')).tail) else none
  if name = "node" then .ok (progress.give .node attached)
  else if name = "prefs" then .ok (progress.give .preferences attached)
  else if name = "logStd" then .ok progress.giveLogStd
  else if name = "help" then .error (.help (.place place))
  else if name = "version" ∧ place = .top then .error .version
  else refuse (.unexpected ("--" ++ name))

/-- Reads the letters after one hyphen. What follows the letter of an option is its value. -/
def readShort (place : Place) : List Char → Progress → Except Verdict Progress
  | [], progress => .ok progress
  | c :: rest, progress =>
    let attached := if rest.isEmpty then none else some rest
    if c = 'n' then .ok (progress.give .node attached)
    else if c = 'p' then .ok (progress.give .preferences attached)
    else if c = 'l' then readShort place rest progress.giveLogStd
    else if c = 'h' then .error (.help (.place place))
    else if c = 'V' ∧ place = .top then .error .version
    else refuse (.unexpected (String.ofList ['-', c]))

/-- Reads a word that is neither an option nor a value of one: the state to be set. Anywhere else it is refused,
    as a misspelled command if it is like one. -/
def readWord (place : Place) (word : String) (progress : Progress) : Except Verdict Progress :=
  if place = .set ∧ progress.given.state.isEmpty then
    .ok { progress with given := { progress.given with state := [word] } }
  else if place = .top ∧ commandWords.any (Similarity.alike word) then refuse (.unknownCommand word)
  else refuse (.unexpected word)

/-- Reads an argument other than a command. -/
def readArgument (place : Place) (argument : String) (progress : Progress) : Except Verdict Progress :=
  if progress.literal then readWord place argument progress
  else if argument = "--" then .ok { progress with literal := true }
  else match argument.toList with
    | '-' :: '-' :: rest => readLong place rest progress
    | '-' :: c :: rest => readShort place (c :: rest) progress
    | _ =>
      match progress.pending with
      | some option =>
        .ok { progress with given := progress.given.addValue argument option, pending := none }
      | none => readWord place argument progress

/-- What the words after `help` ask about. Only the help command and the others have help, and only the last word
    may name the one that is meant. -/
def readHelp : List String → Verdict
  | [] => .help (.place .top)
  | [word] =>
    if word = "help" then .help .help
    else match commands.lookup word with
      | some place => .help (.place place)
      | none => .rejected (.unknownCommand word)
  | word :: next :: _ => .rejected (.unknownCommand (if word ∈ commandWords then next else word))

/-- Reads the arguments at a place, up to a command if it is the first place. -/
def readPlace (place : Place) : List String → Progress → Except Verdict (Progress × Option (Place × List String))
  | [], progress => .ok (progress, none)
  | argument :: rest, progress =>
    let atWord := place = .top ∧ !progress.literal ∧ progress.pending.isNone
    if atWord ∧ argument = "help" then .error (readHelp rest)
    else match if atWord then commands.lookup argument else none with
      | some command => .ok (progress, some (command, rest))
      | none =>
        match readArgument place argument progress with
        | .ok progress => readPlace place rest progress
        | .error verdict => .error verdict

/-- What is wrong with what was given of a parameter. An option with a value has one, the state is one of two words,
    and nothing is given twice. -/
def Given.fault? (given : Given) : Parameter → Option Complaint
  | .valued option =>
    let occurrences := given.occurrences option
    if occurrences.count > 0 ∧ occurrences.values.isEmpty then some (.missingValue (.valued option))
    else if occurrences.count > 1 then some (.repeated (.valued option))
    else none
  | .logStd => if given.logStd > 1 then some (.repeated .logStd) else none
  | .state =>
    match given.state with
    | [] => none
    | value :: _ => if value ≠ "on" ∧ value ≠ "off" then some (.badState value) else none

namespace Progress

/-- The option that stood last, if it never got a value. -/
def unanswered? (progress : Progress) : Option Valued :=
  progress.pending.filter fun option => (progress.given.occurrences option).values.isEmpty

/-- The first fault of a place. A missing state comes before everything else, then the value of an option that stood
    last; the parameters are checked after that. -/
def fault? (progress : Progress) (place : Place) (order : CheckOrder) : Option Complaint :=
  if place = .set ∧ progress.given.state.isEmpty then some .missingState
  else match progress.unanswered? with
    | some option => some (.missingValue (.valued option))
    | none => order.parameters.findSome? progress.given.fault?

/-- What was given at a place, if nothing is wrong with it. -/
def finish (progress : Progress) (place : Place) (order : CheckOrder) : Except Verdict Given :=
  match progress.fault? place order with
  | some complaint => refuse complaint
  | none => .ok progress.given

end Progress

/-- What the places before and after a command say together. -/
def invocation (command : Command) (before after : Given) : Invocation where
  node := (after.node.values.head?.or before.node.values.head?).getD Control.defaultNode
  preferences := (after.preferences.values.head?.or before.preferences.values.head?).getD defaultPreferences
  logToOutput := before.logStd > 0 || after.logStd > 0
  command := command

/-- The command that a place belongs to. Without a command, the state is shown. -/
def Place.command (place : Place) (given : Given) : Command :=
  match place with
  | .restore => .restore
  | .set => .set (given.state = ["on"])
  | .top | .show => .show

end CommandLine

open CommandLine in
/-- Reads the arguments of the program, with an order of the checks for every place. -/
def Invocation.ofArguments (order : CommandLine.Place → CheckOrder) (arguments : List String) :
    Except Verdict Invocation := do
  let (top, found) ← readPlace .top arguments {}
  match found with
  | none => return invocation .show (← top.finish .top (order .top)) {}
  | some (place, rest) =>
    let (inner, _) ← readPlace place rest {}
    let after ← inner.finish place (order place)
    let before ← top.finish .top (order .top)
    return invocation (place.command after) before after

end LedSwitch
