import ShellLowering.Lowering.Basic
import ShellLowering.Text.Quoted

namespace ShellLowering

def toolName : String := "cmdlower"

inductive Flag where
  | help
  | mode
  | parseOnly
  | verbose
  deriving DecidableEq, Repr

/-- Whether a mode was asked for. The value `--` takes a choice back. -/
inductive ModeChoice where
  | unset
  | cleared
  | chosen (mode : Mode)
  deriving DecidableEq, Repr

structure Options where
  mode : ModeChoice
  parseOnly : Bool
  verbose : Bool
  line : Option String
  deriving DecidableEq, Repr

inductive OptionError where
  | ambiguous (argument : String)
  | missingValue
  | invalidChoice (value : String)
  | ignoredValue (flag : Flag) (value : String)
  | unrecognized (arguments : List String)
  deriving DecidableEq, Repr

namespace Flag

/-- The long names, in the order of the help. -/
def longNames : List (String × Flag) :=
  [("--help", .help), ("--mode", .mode), ("--parse-only", .parseOnly), ("--verbose", .verbose)]

def ofLetter? : Char → Option Flag
  | 'h' => some .help
  | 'm' => some .mode
  | 'v' => some .verbose
  | _ => none

/-- The names of a flag, as an error gives them. -/
def names : Flag → String
  | .help => "-h/--help"
  | .mode => "--mode/-m"
  | .parseOnly => "--parse-only"
  | .verbose => "--verbose/-v"

end Flag

def Options.initial : Options := ⟨.unset, false, false, none⟩

namespace OptionError

def message : OptionError → String
  | .ambiguous argument =>
    .join ["ambiguous option: ", argument, " could match ",
      ", ".intercalate (Flag.longNames.map Prod.fst)]
  | .missingValue => .join ["argument ", Flag.mode.names, ": expected one argument"]
  | .invalidChoice value =>
    .join ["argument ", Flag.mode.names, ": invalid choice: ", Text.quoted value,
      " (choose from ",
      ", ".intercalate ([Mode.interactive, .batch].map fun mode => Text.quoted mode.name), ")"]
  | .ignoredValue flag value =>
    .join ["argument ", flag.names, ": ignored explicit argument ", Text.quoted value]
  | .unrecognized arguments => .join ["unrecognized arguments: ", " ".intercalate arguments]

end OptionError

namespace Options

def usage : String :=
  "usage: cmdlower [-h] [--mode \x7binteractive,batch\x7d] [--parse-only] [--verbose]\n" ++
  "                [line]\n"

def help : String :=
  usage ++
  "\n" ++
  "cmdlower - lower shell command lines into command terms\n" ++
  "\n" ++
  "positional arguments:\n" ++
  "  line                  Command line to lower (read from stdin when omitted)\n" ++
  "\n" ++
  "options:\n" ++
  "  -h, --help            show this help message and exit\n" ++
  "  --mode \x7binteractive,batch\x7d, -m \x7binteractive,batch\x7d\n" ++
  "                        Pipeline wiring mode (default: interactive)\n" ++
  "  --parse-only          Print the parse tree instead of the lowered term\n" ++
  "  --verbose, -v         Log lowering decisions to stderr\n" ++
  "\n" ++
  "Examples:\n" ++
  "  cmdlower 'ls -l | grep x > out.txt'\n" ++
  "  cmdlower -m batch 'cat f |> (upper)'\n" ++
  "  echo 'a && b' | cmdlower --parse-only\n" ++
  "\n" ++
  "The default mode is read from $CMDLOWER_MODE (interactive when unset).\n"

def refusal (e : OptionError) : String :=
  .join [usage, toolName, ": error: ", e.message, "\n"]

end Options
end ShellLowering
