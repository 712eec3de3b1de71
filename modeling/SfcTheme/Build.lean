import SfcTheme.Fate
import SfcTheme.Markup.Reader
import SfcTheme.Markup.Writer
import SfcTheme.Settings
import SfcTheme.Report

set_option autoImplicit false

namespace SfcTheme

namespace Text

def baseName (path : Text) : Text := (path.reverse.takeWhile (· != '/')).reverse

end Text

namespace Component

def truth (b : Bool) : Text := if b then "True" else "False"

def summary (c : Component) : Text :=
  "Parsed component: template=" ++ truth c.template.isSome ++ " script=" ++ truth c.script.isSome ++
    " styles=" ++ Text.ofNat c.styles.length ++ " custom=" ++ Text.ofNat c.customBlocks.length

def parseEvent (c : Component) : Event := .log "themed_style.parser.blocks" c.summary

def themeEvents (c : Component) (theme : Option Text) : List Event :=
  (decisions c.styles theme).map fun d => .log "themed_style.transforms.theme" d.line

end Component

/-- The result of a build step, what was seen of it and the chain as the step left it. -/
structure Build where
  result : Except MarkupError Text
  events : List Event
  chain : ReportChain

namespace Build

def output (settings : Settings) (source : Text) : Except MarkupError Text :=
  (Component.parse source true).map fun c => (c.themed settings.theme).source

def run (settings : Settings) (chain : ReportChain) (source path : Text) : Build :=
  match Component.parse source true with
  | .error e => ⟨.error e, [], chain⟩
  | .ok c =>
    let out := (c.themed settings.theme).source
    let seen := c.parseEvent :: c.themeEvents settings.theme
    if settings.debug then
      let (chain, shown) := chain.report ⟨path.baseName, out⟩
      ⟨.ok out, seen ++ shown, chain⟩
    else ⟨.ok out, seen, chain⟩

def startEvent (settings : Settings) (path : Text) : Event :=
  let file : Text := if path = [] then "<source>" else path
  let theme : Text := (settings.theme.map Text.quoted).getD "None"
  .log "themed_style.loader" ("Transforming " ++ file ++ " with theme=" ++ theme)

def announced (settings : Settings) (chain : ReportChain) (source path : Text) : Build :=
  let b := run settings chain source path
  { b with events := startEvent settings path :: b.events }

/-- A build step on its own, whose settings come from a configuration. -/
def load (config : OrderedMap Text Datum) (chain : ReportChain) (source path : Text) :
    Except SettingsFault Build :=
  (Settings.ofConfig config).map fun settings => announced settings chain source path

theorem run_result (settings : Settings) (chain : ReportChain) (source path : Text) :
    (run settings chain source path).result = output settings source := by
  unfold run output
  cases Component.parse source true with
  | error e => rfl
  | ok c => dsimp only; split <;> rfl

theorem load_result {config : OrderedMap Text Datum} {settings : Settings}
    (h : Settings.ofConfig config = .ok settings) (chain : ReportChain) (source path : Text) :
    (load config chain source path).map result = .ok (output settings source) := by
  rw [load, h, ← run_result settings chain source path]
  rfl

end Build

structure Session where
  settings : Settings
  chain : ReportChain

namespace Session

def ofConfig (config : OrderedMap Text Datum) (chain : ReportChain) :
    Except SettingsFault Session :=
  (Settings.ofConfig config).map fun settings => ⟨settings, chain⟩

inductive Request where
  | build (source path : Text)
  | clear (depth : Nat)

def answer (s : Session) : Request → Session × Option Build
  | .build source path =>
    let b := Build.run s.settings s.chain source path
    ({ s with chain := b.chain }, some b)
  | .clear depth => ({ s with chain := s.chain.clear depth }, none)

/-- The session after one request after another, with what each of them ran. -/
def serve (s : Session) : List Request → Session × List (Option Build)
  | [] => (s, [])
  | r :: rs =>
    let (next, build) := s.answer r
    let (last, builds) := next.serve rs
    (last, build :: builds)

end Session

end SfcTheme
