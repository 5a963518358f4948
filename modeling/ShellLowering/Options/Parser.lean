import ShellLowering.Options.Argument

namespace ShellLowering

/-- Why no options result: the help is asked for before anything is wrong, or the arguments are
refused. -/
inductive OptionStop where
  | help
  | refused (e : OptionError)
  deriving DecidableEq, Repr

namespace Options

def setFlag (options : Options) : Flag → Options
  | .parseOnly => { options with parseOnly := true }
  | .verbose => { options with verbose := true }
  | .help => options
  | .mode => options

/-- The mode that a value chooses. By the older rule the separator is dropped even where it stands
for a value, as in `--mode=--`, which leaves no mode chosen; by the newer one it is an invalid
choice. -/
def modeChoice (value : String) : Except OptionStop ModeChoice :=
  if value = Argument.separatorText then .ok .cleared
  else match Mode.ofName? value with
    | some mode => .ok (.chosen mode)
    | none => .error (.refused (.invalidChoice value))

/-- Carries out flags in order, and then the choice of a mode. -/
def apply (options : Options) (flags : List Flag) (modeValue : Option String) :
    Except OptionStop Options :=
  if .help ∈ flags then .error .help
  else
    let flagged := flags.foldl setFlag options
    match modeValue with
    | none => .ok flagged
    | some value => do return { flagged with mode := ← modeChoice value }

/-- The options read so far, the arguments that have no place, and whether the last argument was
taken for the line. -/
structure Progress where
  options : Options
  extras : List String
  lineJustTaken : Bool

namespace Progress

def extra (progress : Progress) (text : String) : Progress :=
  { progress with extras := progress.extras ++ [text], lineJustTaken := false }

/-- The first plain word is the line. -/
def plain (progress : Progress) (text : String) : Progress :=
  match progress.options.line with
  | none => { progress with options.line := some text, lineJustTaken := true }
  | some _ => progress.extra text

/-- The separator has its place before the line and directly after it. -/
def separator (progress : Progress) : Progress :=
  if progress.options.line.isNone || progress.lineJustTaken then
    { progress with lineJustTaken := false }
  else progress.extra Argument.separatorText

def apply (progress : Progress) (flags : List Flag) (modeValue : Option String) :
    Except OptionStop Progress := do
  return { progress with
    options := ← progress.options.apply flags modeValue
    lineJustTaken := false }

/-- Reads arguments from left to right. A mode without a value takes the next argument for it, which
has to be a plain word. -/
def read (progress : Progress) : List Argument → Except OptionStop Progress
  | [] => .ok progress
  | .plain text :: rest => read (progress.plain text) rest
  | .separator :: rest => read progress.separator rest
  | .unknown text :: rest => read (progress.extra text) rest
  | .flags (.error e) :: _ => .error (.refused e)
  | .flags (.ok ⟨flags, .absent⟩) :: rest => do read (← progress.apply flags none) rest
  | .flags (.ok ⟨flags, .given value⟩) :: rest => do
    read (← progress.apply flags (some value)) rest
  | .flags (.ok ⟨flags, .next⟩) :: .plain value :: rest => do
    read (← progress.apply flags (some value)) rest
  | .flags (.ok ⟨_, .next⟩) :: _ => .error (.refused .missingValue)

end Progress

def parse (texts : List String) : Except OptionStop Options := do
  let arguments ← (Argument.ofTexts texts).mapError .refused
  let progress ← Progress.read ⟨initial, [], false⟩ arguments
  if progress.extras.isEmpty then return progress.options
  else .error (.refused (.unrecognized progress.extras))

end Options
end ShellLowering
