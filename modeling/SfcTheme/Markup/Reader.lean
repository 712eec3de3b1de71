import SfcTheme.Markup.Piece
import SfcTheme.Text.Margin

set_option autoImplicit false

namespace SfcTheme

namespace Piece

def block? : Piece → Option Block
  | .selfClosing tag attrs => some ⟨tag.name, [], attrs⟩
  | .block tag attrs content _ => some ⟨tag.name, content, attrs⟩
  | _ => none

end Piece

namespace Block

def deindented (b : Block) : Block :=
  if b.kind = "template" then b else { b with content := b.content.deindented }

def style? (b : Block) : Option Style :=
  if b.kind = Style.kind then some ⟨b.content, b.attrs⟩ else none

def isCustom (b : Block) : Bool :=
  b.kind != Style.kind && !Piece.singletons.contains b.kind

end Block

namespace Component

def ofBlocks (bs : List Block) : Component where
  template := bs.find? fun b => b.kind == "template"
  script := bs.find? fun b => b.kind == "script"
  styles := bs.filterMap Block.style?
  customBlocks := bs.filter Block.isCustom

def ofPieces (deindent : Bool) (ps : List Piece) : Component :=
  let bs := ps.filterMap Piece.block?
  ofBlocks (if deindent then bs.map Block.deindented else bs)

def read (source : Text) (deindent : Bool) : Except FaultAt Component :=
  (Piece.ofText source).map (ofPieces deindent)

def parse (source : Text) (deindent : Bool) : Except MarkupError Component :=
  (read source deindent).mapError (MarkupError.ofFault source)

end Component

/-- The attributes of a tag that stands at `offset`, from the text of the tag behind its name. -/
def AttributeList.parse (source : Text) (offset : Nat) (raw : Text) : Except MarkupError Attrs :=
  match read? raw with
  | some attrs => .ok attrs
  | none => .error (.ofFault source ⟨.malformedAttributes raw, offset⟩)

end SfcTheme
