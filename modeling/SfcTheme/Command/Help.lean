import SfcTheme.Command.Invocation

set_option autoImplicit false

namespace SfcTheme

def versionText : Text := "themed-style, version 0.1.0"

namespace Command

def calledAs : Option Command → Text
  | none => "themed-style"
  | some c => "themed-style " ++ c.name

def usage : Option Command → Text
  | none => "Usage: themed-style [OPTIONS] COMMAND [ARGS]..."
  | some c => "Usage: " ++ calledAs (some c) ++ " [OPTIONS] VUEFILE"

def helpLines : Option Command → List String
  | none =>
    ["  themed-style - build-time theme selection for Vue SFC <style> blocks.",
     "",
     "Options:",
     "  --version      Show the version and exit.",
     "  -v, --verbose  Log resolution decisions to stderr",
     "  --help         Show this message and exit.",
     "",
     "Commands:",
     "  inspect    Parse a Vue SFC and show what happens to each <style> block.",
     "  transform  Strip or swap the <style> blocks of a Vue SFC for THEME.",
     "  validate   Parse a Vue SFC and check its theme/replace/id attributes."]
  | some .transform =>
    ["  Strip or swap the <style> blocks of a Vue SFC for THEME.",
     "",
     "  Suppressed blocks are blanked out so line numbers stay the same.",
     "",
     "Options:",
     "  --theme TEXT       Active theme name",
     "  --debug            Echo the framed output to stderr",
     "  -o, --output FILE  Write the result here instead of stdout",
     "  --help             Show this message and exit."]
  | some .inspect =>
    ["  Parse a Vue SFC and show what happens to each <style> block.",
     "",
     "  Lists scope, theme, replace and id per block, with the keep/suppress decision.",
     "",
     "Options:",
     "  --theme TEXT  Active theme name",
     "  --help        Show this message and exit."]
  | some .validate =>
    ["  Parse a Vue SFC and check its theme/replace/id attributes.",
     "",
     "  Prints diagnostics (errors, warnings, info) and exits with code 0 if no errors",
     "  are found, or code 1 if there are errors.",
     "",
     "Options:",
     "  --help  Show this message and exit."]

def help (c : Option Command) : Text :=
  List.intercalate "\n" (usage c :: [] :: (helpLines c).map String.toList)

def refusal (c : Option Command) (f : UsageFault) : Text :=
  let usage : Text :=
    if f.showsUsage then
      usage c ++ "\nTry '" ++ calledAs c ++ " --help' for help.\n\n"
    else []
  usage ++ "Error: " ++ f.message

end Command

end SfcTheme
