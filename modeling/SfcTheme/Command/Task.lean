import SfcTheme.Build
import SfcTheme.Command.Help
import SfcTheme.Lint.Verdict
import SfcTheme.Text.Utf8

set_option autoImplicit false

namespace SfcTheme

/-- The end of a command. A crash is a write to a place that cannot hold a file. -/
structure Outcome where
  exitCode : Nat
  events : List Event
  tree : FileTree
  crash : Option PathFault

inductive SourceFault where
  | encoding (f : Text.Utf8.Fault)
  | markup (e : MarkupError)

def SourceFault.message : SourceFault → Text
  | .encoding f => f.message
  | .markup e => e.message

namespace FileTree

def octets (t : FileTree) (path : Text) : List UInt8 :=
  match t.find? path with
  | some (_, .file octets) => octets
  | _ => []

def source (t : FileTree) (path : Text) : Except Text.Utf8.Fault Text :=
  (Text.Utf8.decode (t.octets path)).map Text.unifiedNewlines

def component (t : FileTree) (path : Text) : Except SourceFault Component :=
  match t.source path with
  | .error f => .error (.encoding f)
  | .ok source => (Component.parse source true).mapError .markup

end FileTree

namespace Task

/-! Transforming a file. -/

def failed (tree : FileTree) (events : List Event) (line : Text) : Outcome :=
  ⟨1, events ++ [.echo .err line], tree, none⟩

/-- The output goes to a file if one is named and else, without control sequences, to the standard
output. -/
def deliver (tree : FileTree) (events : List Event) (text : Text) : Option Text → Outcome
  | none => ⟨0, events ++ [.print .out text.withoutControls], tree, none⟩
  | some path =>
    match tree.write path (Text.Utf8.encode text) with
    | .ok tree => ⟨0, events ++ [.echo .err ("Wrote " ++ path)], tree, none⟩
    | .error f => ⟨1, events, tree, some f⟩

def transformed (tree : FileTree) (file : Text) (settings : Settings) (output : Option Text) :
    Outcome :=
  match tree.source file with
  | .error f => failed tree [] ("Invalid component: " ++ f.message)
  | .ok source =>
    let b := Build.announced settings ⟨[], some (.console .err)⟩ source (FileTree.tidied file)
    match b.result with
    | .error e => failed tree b.events ("Parse error: " ++ e.message)
    | .ok text => deliver tree b.events text output

/-! Inspecting a file. -/

def styleLine (s : Style) (d : Decision) : Text :=
  let named (label : Text) (value : Option Text) : List Text :=
    ((value.filter (· != [])).map fun v => label ++ v).toList
  let replace : List Text := match s.replace? with
    | some .present => ["replace"]
    | some (.text t) => named "replace=" (some t)
    | none => []
  let start : List Text := ["  #" ++ Text.ofInt d.index, if s.isScoped then "scoped" else "global"]
  let fate : List Text :=
    [if d.fate.suppressed then "-> suppress" else "-> keep", "(" ++ d.fate.reason ++ ")"]
  List.intercalate "  " (start ++ named "theme=" s.theme? ++ replace ++ named "id=" s.id? ++ fate)

def slotNames (c : Component) : Text :=
  let present (name : Text) (b : Option Block) : List Text := (b.map fun _ => name).toList
  match present "template" c.template ++ present "script" c.script with
  | [] => "-"
  | names => List.intercalate ", " names

def inspectionLines (file : Text) (theme : Option Text) (c : Component) : List Text :=
  let custom : List Text := match c.customBlocks with
    | [] => []
    | bs => ["Custom: " ++ List.intercalate ", " (bs.map Block.kind)]
  let start : List Text :=
    ["File:   " ++ FileTree.lastName file, "Theme:  " ++ theme.getD "(none)",
      "Blocks: " ++ slotNames c]
  let styles := (c.styles.zip (decisions c.styles theme)).map fun (s, d) => styleLine s d
  start ++ custom ++ [[], "Styles:"] ++ styles

/-! Validating a file. -/

def validationSummary (found : List Finding) : Text :=
  let count (p : Finding → Bool) : Text := Text.ofNat (found.countP p)
  "Summary: " ++ count Finding.isError ++ " error(s), " ++ count Finding.isWarning ++
    " warning(s), " ++ count Finding.isInfo ++ " info"

def validationLines (file : Text) (found : List Finding) : List Text :=
  if found = [] then ["OK: " ++ FileTree.lastName file ++ " is valid (0 diagnostics)"]
  else found.map Finding.line ++ [[], validationSummary found]

def validationCode (found : List Finding) : Nat := if found.any Finding.isError then 1 else 0

def answered (tree : FileTree) (file : Text) (answer : Component → Nat × List Text) : Outcome :=
  match tree.component file with
  | .error f => failed tree [] ("Parse error: " ++ f.message)
  | .ok c =>
    let (code, lines) := answer c
    ⟨code, c.parseEvent :: lines.map (Event.echo .out), tree, none⟩

def run (tree : FileTree) : Task → Outcome
  | .transform file theme debug output => transformed tree file ⟨theme, debug⟩ output
  | .inspect file theme => answered tree file fun c => (0, inspectionLines file theme c)
  | .validate file => answered tree file fun c =>
    let found := c.findings []
    (validationCode found, validationLines file found)

end Task

namespace Invocation

def verbose : Invocation → Bool
  | .task v _ => v
  | _ => false

def run (tree : FileTree) : Invocation → Outcome
  | .nothing => ⟨2, [.echo .err (Command.help none)], tree, none⟩
  | .help c => ⟨0, [.echo .out (Command.help c)], tree, none⟩
  | .version => ⟨0, [.echo .out versionText], tree, none⟩
  | .fault c f => ⟨2, [.echo .err (Command.refusal c f)], tree, none⟩
  | .task _ t => t.run tree

end Invocation

def execute (tree : FileTree) (words : List Text) : Outcome :=
  let invocation := Invocation.ofWords tree words
  let outcome := invocation.run tree
  { outcome with events := outcome.events.flatMap (Event.shown invocation.verbose) }

namespace Outcome

def stdout (o : Outcome) : Text := Event.printed .out o.events

def stderr (o : Outcome) : Text := Event.printed .err o.events

end Outcome

end SfcTheme
