import LedSwitch.CommandLine.Arguments

/-!
What the program prints about itself.
-/

namespace LedSwitch.CommandLine

/-- The name and version of the program. -/
def title : String := "chargingled 1.0"

/-- What the options with a value are for. -/
def optionLines : List String :=
  ["OPTIONS:",
    "    -n, --node <node>      sysfs node of the charging led, example: /sys/class/gpio/gpio168/value",
    "    -p, --prefs <prefs>    file holding the stored preferences"]

/-- The help that is given for the program as a whole. -/
def mainHelp : List String :=
  [title, "soporte <soporte@nebulae.com.co>", "charging led switch", "", "USAGE:",
    "    chargingled [FLAGS] [OPTIONS] [SUBCOMMAND]", "", "FLAGS:",
    "    -h, --help       Prints help information",
    "    -l, --logStd     set log to stdout",
    "    -V, --version    Prints version information", ""]
  ++ optionLines ++
  ["", "SUBCOMMANDS:",
    "    help       Prints this message or the help of the given subcommand(s)",
    "    restore    re-apply the stored preference, run at boot or resume",
    "    set        switch the charging led on or off",
    "    show       print the control and node state"]

/-- The help that is given for one command. -/
def commandHelp (name purpose arguments : String) : List String :=
  ["chargingled-" ++ name ++ " ", purpose, "", "USAGE:",
    "    chargingled " ++ name ++ " [FLAGS] [OPTIONS]" ++ arguments, "", "FLAGS:",
    "    -h, --help      Prints help information",
    "    -l, --logStd    set log to stdout", ""]
  ++ optionLines

/-- The lines of the help about a topic. -/
def Topic.lines : Topic → List String
  | .place .top => mainHelp
  | .place .restore => commandHelp "restore" "re-apply the stored preference, run at boot or resume" ""
  | .place .set =>
    commandHelp "set" "switch the charging led on or off" " <state>"
      ++ ["", "ARGS:", "    <state>     [possible values: on, off]"]
  | .place .show => commandHelp "show" "print the control and node state" ""
  | .help =>
    ["chargingled-help ", "Prints this message or the help of the given subcommand(s)", "", "USAGE:",
      "    chargingled help [subcommand]...", "", "ARGS:",
      "    <subcommand>...    The subcommand whose help message to display"]

end LedSwitch.CommandLine
