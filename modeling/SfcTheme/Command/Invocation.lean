import SfcTheme.Command.Argument
import SfcTheme.Command.FileTree
import SfcTheme.Text.Quoted

/-!
What a command line asks for: a task on a file, a text about the program, or nothing that could be
done. Switches that ask for a text win over every fault but those of the switches themselves.
-/

set_option autoImplicit false

namespace SfcTheme

inductive Command where
  | transform | inspect | validate
  deriving DecidableEq, Repr

namespace Command

def name : Command → Text
  | .transform => "transform"
  | .inspect => "inspect"
  | .validate => "validate"

def all : List Command := [.transform, .inspect, .validate]

def ofName? (s : Text) : Option Command := all.find? fun c => c.name == s

def switches : Command → List Switch
  | .transform => [.theme, .debug, .output, .help]
  | .inspect => [.theme, .help]
  | .validate => [.help]

def groupSwitches : List Switch := [.version, .verbose, .help]

end Command

/-- A task whose file is there. An empty output is none. -/
inductive Task where
  | transform (file : Text) (theme : Option Text) (debug : Bool) (output : Option Text)
  | inspect (file : Text) (theme : Option Text)
  | validate (file : Text)
  deriving DecidableEq, Repr

inductive UsageFault where
  | word (f : WordFault)
  | missingCommand
  | unknownCommand (name : Text)
  | missingFile
  | fileNotFound (path : Text)
  | fileIsDirectory (path : Text)
  | outputIsDirectory (path : Text)
  | extraOperands (words : List Text)
  deriving DecidableEq, Repr

inductive Invocation where
  | nothing
  | help (command : Option Command)
  | version
  | fault (command : Option Command) (f : UsageFault)
  | task (verbose : Bool) (t : Task)
  deriving DecidableEq, Repr

namespace Invocation

def pathFault? (tree : FileTree) (args : List Argument) : Option UsageFault :=
  let node? (path : Text) : Option Node := (tree.find? path).map Prod.snd
  match Argument.lastValue? .output args with
  | some path =>
    if node? path = some .directory then some (.outputIsDirectory path) else fileFault? node? args
  | none => fileFault? node? args
where
  fileFault? (node? : Text → Option Node) (args : List Argument) : Option UsageFault :=
    match Argument.operands args with
    | [] => some .missingFile
    | path :: extra =>
      match node? path with
      | none => some (.fileNotFound path)
      | some .directory => some (.fileIsDirectory path)
      | some (.file _) => if extra = [] then none else some (.extraOperands extra)

def taskOf (command : Command) (file : Text) (args : List Argument) : Task :=
  let theme := Argument.lastValue? .theme args
  match command with
  | .transform =>
    .transform file theme (Argument.hasFlag .debug args)
      ((Argument.lastValue? .output args).filter (· != []))
  | .inspect => .inspect file theme
  | .validate => .validate file

def ofCommand (tree : FileTree) (verbose : Bool) (command : Command) (words : List Text) :
    Invocation :=
  match Argument.ofWords command.switches true none words with
  | .error f => .fault (some command) (.word f)
  | .ok args =>
    if Argument.hasFlag .help args then .help (some command)
    else match pathFault? tree args with
      | some f => .fault (some command) f
      | none => .task verbose (taskOf command ((Argument.operands args).headD []) args)

def programText? (args : List Argument) : Option Invocation :=
  args.findSome? fun
    | .flag .help => some (.help none)
    | .flag .version => some .version
    | _ => none

/-- A word that names no command is tried as a switch before it is refused. -/
def ofUnknown (name : Text) (words : List Text) : Invocation :=
  match Argument.ofWords Command.groupSwitches false none (name :: words) with
  | .error f => .fault none (.word f)
  | .ok args => (programText? args).getD (.fault none (.unknownCommand name))

def ofWords (tree : FileTree) (words : List Text) : Invocation :=
  if words = [] then .nothing
  else match Argument.ofWords Command.groupSwitches false none words with
    | .error f => .fault none (.word f)
    | .ok args =>
      match programText? args, Argument.operands args with
      | some text, _ => text
      | none, [] => .fault none .missingCommand
      | none, name :: rest =>
        match Command.ofName? name with
        | some command => ofCommand tree (Argument.hasFlag .verbose args) command rest
        | none => ofUnknown name rest

end Invocation

namespace UsageFault

def message : UsageFault → Text
  | .word (.unknown name) => "No such option: " ++ name
  | .word (.lacksValue name) => "Option " ++ name.quoted ++ " requires an argument."
  | .word (.takesNoValue name) => "Option " ++ name.quoted ++ " does not take a value."
  | .missingCommand => "Missing command."
  | .unknownCommand name => "No such command " ++ name.quoted ++ "."
  | .missingFile => "Missing argument 'VUEFILE'."
  | .fileNotFound path =>
    "Invalid value for 'VUEFILE': File " ++ path.quoted ++ " does not exist."
  | .fileIsDirectory path =>
    "Invalid value for 'VUEFILE': File " ++ path.quoted ++ " is a directory."
  | .outputIsDirectory path =>
    "Invalid value for '-o' / '--output': File " ++ path.quoted ++ " is a directory."
  | .extraOperands words =>
    let noun : Text := if words.length = 1 then "argument" else "arguments"
    "Got unexpected extra " ++ noun ++ " (" ++ List.intercalate " " words ++ ")"

/-- A switch with a wrong number of values is refused without the usage line. -/
def showsUsage : UsageFault → Bool
  | .word (.lacksValue _) | .word (.takesNoValue _) => false
  | _ => true

end UsageFault

end SfcTheme
