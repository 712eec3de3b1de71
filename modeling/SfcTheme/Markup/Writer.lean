import SfcTheme.Component

set_option autoImplicit false

namespace SfcTheme

def Attribute.source : Text × AttrValue → Text
  | (name, .present) => ' ' :: name
  | (name, .text s) => ' ' :: name ++ "=\"" ++ s ++ "\""

def Attrs.source (as : Attrs) : Text := as.entries.flatMap Attribute.source

namespace Block

def source (b : Block) : Text :=
  "<" ++ b.kind ++ Attrs.source b.attrs ++ ">" ++ b.content ++ "</" ++ b.kind ++ ">"

def sectionText (b : Block) : Text := b.source ++ ['\n']

end Block

namespace Component

def customSource (bs : List Block) : Text := bs.flatMap fun b => b.sectionText ++ ['\n']

def styleSource (ss : List Style) : Text :=
  List.intercalate ['\n'] (ss.map fun s => s.toBlock.sectionText)

/-- A slot that is empty leaves its line break behind. -/
def slotSource (b : Option Block) : Text := (b.map Block.sectionText).getD [] ++ ['\n']

def source (c : Component) : Text :=
  customSource c.customBlocks ++ slotSource c.template ++ slotSource c.script ++
    styleSource c.styles

end Component

end SfcTheme
