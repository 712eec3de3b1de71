import SfcTheme.Datum
import SfcTheme.OrderedMap

set_option autoImplicit false

namespace SfcTheme

/-- An attribute without a value is present. Every other one carries text. -/
inductive AttrValue where
  | present
  | text (s : Text)
  deriving DecidableEq, Repr

def AttrValue.text? : AttrValue → Option Text
  | .present => none
  | .text s => some s

abbrev Attrs := OrderedMap Text AttrValue

structure Block where
  kind : Text
  content : Text
  attrs : Attrs
  deriving DecidableEq

structure Style where
  content : Text
  attrs : Attrs
  deriving DecidableEq

structure Component where
  template : Option Block
  script : Option Block
  styles : List Style
  customBlocks : List Block
  deriving DecidableEq

namespace Style

def kind : Text := "style"

def toBlock (s : Style) : Block := ⟨kind, s.content, s.attrs⟩

/-- Only a bare attribute scopes a block. -/
def isScoped (s : Style) : Bool := s.attrs.get? "scoped" = some .present

def text? (s : Style) (name : Text) : Option Text := (s.attrs.get? name).bind AttrValue.text?

/-- The name of the theme that the block belongs to. A base block has none. -/
def theme? (s : Style) : Option Text := (s.text? "theme").filter fun t => !t.isEmpty

def isThemed (s : Style) : Bool := s.theme?.isSome

def replace? (s : Style) : Option AttrValue := s.attrs.get? "replace"

def id? (s : Style) : Option Text := s.text? "id"

end Style

namespace Component

def empty : Component := ⟨none, none, [], []⟩

end Component

/-! Equality up to the order of attributes. -/

def Block.same (a b : Block) : Bool :=
  a.kind == b.kind && a.content == b.content && a.attrs.same b.attrs

def Style.same (a b : Style) : Bool := a.toBlock.same b.toBlock

def Component.same (a b : Component) : Bool :=
  a.template.toList.isEqv b.template.toList Block.same &&
    a.script.toList.isEqv b.script.toList Block.same &&
    a.styles.isEqv b.styles Style.same &&
    a.customBlocks.isEqv b.customBlocks Block.same

/-! Blocks from data whose shape is unknown. -/

inductive BlockFault where
  | emptyKind
  | invalidAttribute (kind name : Text) (value : Datum)

def BlockFault.message : BlockFault → Text
  | .emptyKind => "Block type must be a non-empty string"
  | .invalidAttribute kind name value =>
    "<" ++ kind ++ "> attribute " ++ name.quoted ++ " must be a string or True, got " ++
      value.literal

def AttrValue.ofDatum? : Datum → Option AttrValue
  | .bool true => some .present
  | .text s => some (.text s)
  | _ => none

def Attrs.check (kind : Text) : List (Text × Datum) → Except BlockFault (List (Text × AttrValue))
  | [] => .ok []
  | (name, d) :: ds =>
    match AttrValue.ofDatum? d with
    | some value => (check kind ds).map ((name, value) :: ·)
    | none => .error (.invalidAttribute kind name d)

def Attrs.ofData (kind : Text) (data : OrderedMap Text Datum) : Except BlockFault Attrs :=
  (check kind data.entries).map OrderedMap.ofList

def Block.ofData (kind content : Text) (data : OrderedMap Text Datum) : Except BlockFault Block :=
  if kind = [] then .error .emptyKind
  else (Attrs.ofData kind data).map (Block.mk kind content)

def Style.ofData (content : Text) (data : OrderedMap Text Datum) :
    Except BlockFault Style :=
  (Attrs.ofData Style.kind data).map (Style.mk content)

end SfcTheme
