import Restyle.Text
/-!
Syntax trees over byte ranges of a source. A faulty source has a tree too: what could not be read
stands in it as an error node, and a token that had to be supplied as a missing node.
-/

namespace Restyle.Syntax

/-- What a node stands for: a category of the grammar, a fixed token, a token that the source
lacks and the reader supplied, or a stretch that the grammar does not admit. -/
inductive Kind where
  | category (name : String) | token (text : String) | missing (name : String) | error
deriving DecidableEq, Repr, Inhabited

def Kind.name : Kind → String
  | .category name => name
  | .token text => text
  | .missing name => name
  | .error => "ERROR"

/-- The part that a child plays in its parent, where a reader of the tree asks for it. -/
inductive Role where
  | name | attribute | openTag | closeTag
deriving DecidableEq, Repr

/-- The categories of comments: as scripts write them, and as markup does. -/
def commentCategories : List String := ["comment", "html_comment"]

/-- A node with its kind, the role it plays in its parent, the bytes it covers and its children
in source order. -/
inductive Node where
  | mk (kind : Kind) (role : Option Role) (span : Span) (children : List Node)
deriving Repr, Inhabited

namespace Node

def kind : Node → Kind
  | mk k _ _ _ => k

def role : Node → Option Role
  | mk _ r _ _ => r

def span : Node → Span
  | mk _ _ s _ => s

/-- The children of a node in source order. -/
def children : Node → List Node
  | mk _ _ _ cs => cs

def withRole (r : Role) : Node → Node
  | mk k _ s cs => mk k (some r) s cs

/-- Whether the node is of the grammar's category `name`. -/
def is (name : String) (n : Node) : Bool :=
  n.kind == .category name

/-- Whether the node is a stretch that could not be read. -/
def isError (n : Node) : Bool :=
  n.kind == .error

/-- Whether the node is a comment. -/
def isComment (n : Node) : Bool :=
  commentCategories.any fun name => n.is name

def isMissing (n : Node) : Bool :=
  match n.kind with
  | .missing _ => true
  | _ => false

/-- Whether the node is more than a fixed token: a category, an error, or a missing token whose
name is a word. -/
def isNamed (n : Node) : Bool :=
  match n.kind with
  | .category _ | .error => true
  | .token _ => false
  | .missing name => name.toList.all fun c => c.isAlphanum || c == '_'

def namedChildren (n : Node) : List Node :=
  n.children.filter isNamed

def namedChild? (n : Node) (i : Nat) : Option Node :=
  n.namedChildren[i]?

/-- The first child in a role. -/
def childInRole? (n : Node) (r : Role) : Option Node :=
  n.children.find? fun c => c.role == some r

/-- The first child of a category. -/
def childOf? (n : Node) (name : String) : Option Node :=
  n.children.find? (is name)

mutual
def hasFault : Node → Bool
  | mk k r s cs => (mk k r s cs).isError || (mk k r s cs).isMissing || anyFault cs

/-- Whether an error or a missing token stands in one of the trees. -/
def anyFault : List Node → Bool
  | [] => false
  | n :: ns => n.hasFault || anyFault ns
end

def text (n : Node) (source : String) : String :=
  n.span.text source

end Node

end Restyle.Syntax
