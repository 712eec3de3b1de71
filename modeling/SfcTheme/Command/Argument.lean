import SfcTheme.Text

/-!
The words of a command line as switches, settings and operands. A word after two dashes alone is an
operand whatever it looks like, and so is every word after the first operand where operands end the
switches.
-/

set_option autoImplicit false

namespace SfcTheme

inductive Switch where
  | theme | debug | output | verbose | version | help
  deriving DecidableEq, Repr

namespace Switch

def takesValue : Switch → Bool
  | .theme | .output => true
  | _ => false

def long : Switch → Text
  | .theme => "--theme"
  | .debug => "--debug"
  | .output => "--output"
  | .verbose => "--verbose"
  | .version => "--version"
  | .help => "--help"

def short? : Switch → Option Char
  | .output => some 'o'
  | .verbose => some 'v'
  | _ => none

end Switch

inductive Argument where
  | flag (s : Switch)
  | setting (s : Switch) (value : Text)
  | operand (word : Text)
  deriving DecidableEq, Repr

inductive WordFault where
  | unknown (name : Text)
  | lacksValue (name : Text)
  | takesNoValue (name : Text)
  deriving DecidableEq, Repr

namespace Argument

/-- A switch that the next word has to give a value to, as it was written. -/
abbrev Pending := Option (Switch × Text)

def ofShorts (known : List Switch) : Text → Except WordFault (List Argument × Pending)
  | [] => .ok ([], none)
  | c :: cs =>
    match known.find? fun s => s.short? == some c with
    | none => .error (.unknown ['-', c])
    | some s =>
      if s.takesValue then
        if cs = [] then .ok ([], some (s, ['-', c])) else .ok ([.setting s cs], none)
      else (ofShorts known cs).map fun r => (.flag s :: r.1, r.2)

def splitValue (word : Text) : Text × Option Text :=
  match word.dropWhile (· != '=') with
  | [] => (word, none)
  | _ :: value => (word.takeWhile (· != '='), some value)

def ofLong (known : List Switch) (word : Text) : Except WordFault (List Argument × Pending) :=
  let (name, value) := splitValue word
  match known.find? fun s => s.long == name with
  | none => .error (.unknown name)
  | some s =>
    match s.takesValue, value with
    | true, some v => .ok ([.setting s v], none)
    | true, none => .ok ([], some (s, name))
    | false, none => .ok ([.flag s], none)
    | false, some _ => .error (.takesNoValue name)

def isSwitchWord : Text → Bool
  | '-' :: _ :: _ => true
  | _ => false

def ofSwitchWord (known : List Switch) : Text → Except WordFault (List Argument × Pending)
  | '-' :: '-' :: s => ofLong known ('-' :: '-' :: s)
  | word => ofShorts known word.tail

/-- The arguments in the words after a switch that still wants a value, if one does. With `mixed`,
switches may come after operands. -/
def ofWords (known : List Switch) (mixed : Bool) :
    Pending → List Text → Except WordFault (List Argument)
  | some (_, name), [] => .error (.lacksValue name)
  | some (s, _), word :: words =>
    (ofWords known mixed none words).map (.setting s word :: ·)
  | none, [] => .ok []
  | none, word :: words =>
    if word = ['-', '-'] then .ok (words.map .operand)
    else if isSwitchWord word then
      match ofSwitchWord known word with
      | .error f => .error f
      | .ok (args, pending) => (ofWords known mixed pending words).map (args ++ ·)
    else if mixed then (ofWords known mixed none words).map (.operand word :: ·)
    else .ok ((word :: words).map .operand)

def operand? : Argument → Option Text
  | .operand word => some word
  | _ => none

def operands (args : List Argument) : List Text := args.filterMap operand?

def lastValue? (s : Switch) (args : List Argument) : Option Text :=
  args.reverse.findSome? fun
    | .setting s' value => if s' = s then some value else none
    | _ => none

def hasFlag (s : Switch) (args : List Argument) : Bool := args.contains (.flag s)

end Argument

end SfcTheme
