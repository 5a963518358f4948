import ShellLowering.Options.Basic

/-!
What a single option argument asks for: several flags may share one minus, and a value may be
attached to the last of them. Two rules for this are in use, and the one here is the older one. By
the newer one `-v` refuses the value of `-v=m`, `-vm=batch` chooses the mode `batch`, and `-vx` sets
the flag and leaves `-x` without a place.
-/

namespace ShellLowering

inductive ModeValue where
  | absent
  | next
  | given (value : String)
  deriving DecidableEq, Repr

/-- The flags that one argument sets, in order, and the mode it asks for after them. -/
structure FlagGroup where
  flags : List Flag
  mode : ModeValue
  deriving DecidableEq, Repr

namespace FlagGroup

def single : Flag → FlagGroup
  | .mode => ⟨[], .next⟩
  | flag => ⟨[flag], .absent⟩

/-- A flag with a value; only the mode takes one. -/
def valued (value : String) : Flag → Except OptionError FlagGroup
  | .mode => .ok ⟨[], .given value⟩
  | flag => .error (.ignoredValue flag value)

/-- A flag with letters attached, which are further flags up to the mode, and from there on its
value. -/
def lettered (flag : Flag) : List Char → Except OptionError FlagGroup
  | [] => .ok (single flag)
  | letter :: letters =>
    if flag = .mode then valued (String.ofList (letter :: letters)) flag
    else match Flag.ofLetter? letter with
      | none => .error (.ignoredValue flag (String.ofList (letter :: letters)))
      | some next => do
        let group ← lettered next letters
        return { group with flags := flag :: group.flags }

/-- The group of a long option with the value after its equals sign. -/
def ofLong (flag : Flag) : Option String → Except OptionError FlagGroup
  | none => .ok (single flag)
  | some value => valued value flag

/-- The group of a short option with the text attached to it. An equals sign directly after the
letter is dropped; nothing after it is an empty value. -/
def ofShort (flag : Flag) : List Char → Except OptionError FlagGroup
  | ['='] => valued "" flag
  | '=' :: attached => lettered flag attached
  | attached => lettered flag attached

end FlagGroup
end ShellLowering
