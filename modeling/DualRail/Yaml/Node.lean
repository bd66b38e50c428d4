/-
  Documents: the structure of a YAML text.

  A settings text is one document with one mapping from scalars to scalars.  So a
  document is read down to the entries of its outermost mapping.  Of a deeper
  collection only the start is kept: no setting can be one, and nothing after it
  matters.  A document may be incomplete, when the rules are broken further on in
  the text.
-/
import DualRail.Yaml.Token

set_option autoImplicit false

namespace DualRail.Yaml

/-- A scalar with its tag. -/
structure Scalar where
  text : String
  style : Style
  tag : Option TagName
deriving DecidableEq, Repr, Inhabited

/-- A scalar, or the start of a collection. -/
inductive Node
  | scalar (s : Scalar)
  | sequence (tag : Option TagName)
  | mapping (flow : Bool) (tag : Option TagName)
deriving DecidableEq, Repr, Inhabited

namespace Node

/-- The scalar that stands where nothing is written. -/
def empty : Node := .scalar ⟨"", .plain, none⟩

end Node

/-- What is written in the place of a node: the node itself, or an alias for the
node in a slot. -/
inductive Item
  | node (n : Node)
  | alias (slot : Nat)
deriving DecidableEq, Repr, Inhabited

namespace Item

/-- Whether an item takes only its own tokens, so that reading goes on after it. -/
def isComplete : Item → Bool
  | .node (.scalar _) => true
  | .node _ => false
  | .alias _ => true

/-- Whether an item is an alias. -/
def isAlias : Item → Bool
  | .node _ => false
  | .alias _ => true

end Item

/-- A key and its value as they are written.  The value is missing when the rules
are broken before it. -/
structure Pair where
  key : Item
  value : Option Item
deriving DecidableEq, Repr, Inhabited

/-- An entry of a mapping.  `keyAliased` says that the key is an alias; the value
is missing when the rules are broken before it. -/
structure Entry where
  key : Node
  keyAliased : Bool
  value : Option Node
deriving DecidableEq, Repr, Inhabited

/-- A document.  It is broken if the rules are broken before its first node.  The
flag says whether the rules are kept from there to the end of the text. -/
inductive Document
  | missing
  | broken
  | single (node : Node) (whole : Bool)
  | mapping (entries : List Entry) (whole : Bool)
deriving DecidableEq, Repr, Inhabited

/-! ## Names in scope -/

/-- What handles and anchors stand for.  Every anchor has a slot, and every slot
holds the node that was last put there. -/
structure Scope where
  handles : List (String × TagName)
  anchors : List (String × Nat)
  slots : List (Nat × Node)
deriving DecidableEq, Repr, Inhabited

namespace Scope

/-- The handles that need no directive. -/
def standardHandles : List (String × TagName) :=
  [("!", .ofString "!"), ("!!", .ofString "tag:yaml.org,2002:")]

/-- The scope of a text with these handles, before any anchor. -/
def ofHandles (handles : List (String × TagName)) : Scope :=
  ⟨handles ++ standardHandles, [], []⟩

/-- The full name of a tag, if its handle is known. -/
def tagName? (s : Scope) (t : Tag) : Option TagName :=
  if t.handle = "" then some t.suffix
  else (s.handles.lookup t.handle).map (· ++ t.suffix)

/-- The scope with an anchor, if there is one.  Its slot is numbered by the anchors
that have a name so far; an anchor that is given again moves to such a slot, which
the next new anchor gets as well. -/
def define (s : Scope) (anchor : Option String) (n : Node) : Scope :=
  match anchor with
  | some name =>
      let slot := s.anchors.length
      { s with
        anchors := (name, slot) :: s.anchors.filter (·.1 != name)
        slots := (slot, n) :: s.slots }
  | none => s

/-- The node that an item stands for. -/
def resolve (s : Scope) : Item → Node
  | .node n => n
  | .alias slot => (s.slots.lookup slot).getD .empty

/-- The entry of a pair. -/
def entry (s : Scope) (p : Pair) : Entry := ⟨s.resolve p.key, p.key.isAlias, p.value.map s.resolve⟩

end Scope

/-! ## Nodes -/

/-- What is written before a node. -/
structure Properties where
  anchor : Option String
  tag : Option Tag
deriving DecidableEq, Repr, Inhabited

/-- Read an anchor and a tag, in either order. -/
def takeProperties : List Token → Properties × List Token
  | .anchor a :: .tag t :: rest => (⟨some a, some t⟩, rest)
  | .tag t :: .anchor a :: rest => (⟨some a, some t⟩, rest)
  | .anchor a :: rest => (⟨some a, none⟩, rest)
  | .tag t :: rest => (⟨none, some t⟩, rest)
  | tokens => (⟨none, none⟩, tokens)

/-- An item that was read, with the scope and the tokens after it. -/
structure ItemRead where
  item : Item
  scope : Scope
  rest : List Token
deriving DecidableEq, Repr, Inhabited

/-- Read what follows the properties of a node.  `block` says whether a block may
start here, `indentless` whether a sequence may start without one. -/
def takeContent (block indentless : Bool) (scope : Scope) (p : Properties)
    (tag : Option TagName) : List Token → Option ItemRead
  | [] => none
  | t :: rest =>
      let make (n : Node) (rest : List Token) : Option ItemRead :=
        some ⟨.node n, scope.define p.anchor n, rest⟩
      match t with
      | .scalar text style => make (.scalar ⟨text, style, tag⟩) rest
      | .flowSequenceStart => make (.sequence tag) rest
      | .flowMappingStart => make (.mapping true tag) rest
      | _ =>
          if t = .blockEntry ∧ indentless then make (.sequence tag) rest
          else if t = .blockSequenceStart ∧ block then make (.sequence tag) rest
          else if t = .blockMappingStart ∧ block then make (.mapping false tag) rest
          else if p.anchor.isSome ∨ p.tag.isSome then
            make (.scalar ⟨"", .plain, tag⟩) (t :: rest)
          else none

/-- Read a node, or the start of one, or an alias. -/
def takeNode (block indentless : Bool) (scope : Scope) (tokens : List Token) : Option ItemRead :=
  match tokens with
  | .alias name :: rest =>
      (scope.anchors.lookup name).map fun slot => ⟨.alias slot, scope, rest⟩
  | _ =>
      let (p, rest) := takeProperties tokens
      match p.tag with
      | none => takeContent block indentless scope p none rest
      | some t =>
          match scope.tagName? t with
          | some name => takeContent block indentless scope p (some name) rest
          | none => none

/-! ## Mappings -/

/-- Read the node that a mark announces, unless one of `absent` follows. -/
def takeOptional (block : Bool) (absent : List Token) (scope : Scope) (tokens : List Token) :
    Option ItemRead :=
  match tokens with
  | [] => none
  | t :: _ =>
      if absent.contains t then some ⟨.node .empty, scope, tokens⟩
      else takeNode block block scope tokens

/-- Read the value of an entry, which may have none. -/
def takeValue (block : Bool) (absent : List Token) (scope : Scope) (tokens : List Token) :
    Option ItemRead :=
  match tokens with
  | [] => none
  | .value :: rest => takeOptional block absent scope rest
  | _ => some ⟨.node .empty, scope, tokens⟩

/-- What is found where a pair may start: no pair and a broken rule, the end of
the mapping, or a pair and the scope after it, with the tokens where to go on
unless nothing after it matters. -/
inductive PairRead
  | broken
  | closed (rest : List Token)
  | pair (p : Pair) (scope : Scope) (rest : Option (List Token))
deriving DecidableEq, Repr, Inhabited

/-- The pair of a key and a value. -/
def makePair (k : ItemRead) (value : Option ItemRead) : PairRead :=
  match k.item.isComplete, value with
  | true, some v =>
      .pair ⟨k.item, some v.item⟩ v.scope (if v.item.isComplete then some v.rest else none)
  | _, _ => .pair ⟨k.item, none⟩ k.scope none

/-- Read a pair after the mark of its key.  `absent` can follow the mark of a
value without a node between them. -/
def takeMarked (block : Bool) (absent : List Token) (scope : Scope) (tokens : List Token) :
    PairRead :=
  match takeOptional block (.value :: absent) scope tokens with
  | none => .broken
  | some k => makePair k (takeValue block absent k.scope k.rest)

/-- Read a pair of a block mapping. -/
def takeBlockPair (scope : Scope) : List Token → PairRead
  | .key :: rest => takeMarked true [.key, .value, .blockEnd] scope rest
  | .blockEnd :: rest => .closed rest
  | _ => .broken

/-- Read a pair of a flow mapping, after the comma.  Without a mark, it has no
value. -/
def takeFlowItem (scope : Scope) : List Token → PairRead
  | .flowMappingEnd :: rest => .closed rest
  | .key :: rest => takeMarked false [.flowEntry, .flowMappingEnd] scope rest
  | tokens =>
      match takeNode false false scope tokens with
      | none => .broken
      | some k =>
          makePair k (if k.rest.isEmpty then none else some ⟨.node .empty, k.scope, k.rest⟩)

/-- Read a pair of a flow mapping, with a comma before all but the first. -/
def takeFlowPair (first : Bool) (scope : Scope) : List Token → PairRead
  | .flowMappingEnd :: rest => .closed rest
  | .flowEntry :: rest => if first then .broken else takeFlowItem scope rest
  | tokens => if first then takeFlowItem scope tokens else .broken

/-- The pairs of a mapping, the scope after them, and what follows the mapping if
it is closed. -/
structure MappingRead where
  pairs : List Pair
  scope : Scope
  after : Option (List Token)
deriving DecidableEq, Repr, Inhabited

/-- Read the pairs of a mapping, at most `fuel` of them. -/
def takePairs (flow : Bool) : Nat → Bool → Scope → List Token → MappingRead
  | 0, _, scope, _ => ⟨[], scope, none⟩
  | fuel + 1, first, scope, tokens =>
      match (if flow then takeFlowPair first scope tokens else takeBlockPair scope tokens) with
      | .broken => ⟨[], scope, none⟩
      | .closed rest => ⟨[], scope, some rest⟩
      | .pair p scope none => ⟨[p], scope, none⟩
      | .pair p scope (some rest) =>
          let more := takePairs flow fuel false scope rest
          { more with pairs := p :: more.pairs }

/-- The document of a mapping.  An alias stands for what its slot holds in the
end. -/
def MappingRead.document (m : MappingRead) (whole : Bool) : Document :=
  .mapping (m.pairs.map m.scope.entry) whole

/-! ## Documents -/

/-- Whether nothing but ends of documents follows. -/
def endsStream : List Token → Bool
  | .documentEnd :: rest => endsStream rest
  | .streamEnd :: _ => true
  | _ => false

/-- Read the outermost node of a document.  Every pair of a mapping takes at least
one token. -/
def takeRoot (scope : Scope) (tokens : List Token) : Document :=
  match takeNode true false scope tokens with
  | none => .broken
  | some r =>
      match r.scope.resolve r.item with
      | .mapping flow _ =>
          let m := takePairs flow (r.rest.length + 1) true r.scope r.rest
          m.document (m.after.any endsStream)
      | node => .single node (endsStream r.rest)

/-- Read directives, none of them twice. -/
def takeDirectives (version : Bool) (handles : List (String × TagName)) :
    List Token → Option (List (String × TagName) × List Token)
  | .directive (.version major minor) :: rest =>
      if version || major != 1 || (minor != 1 && minor != 2) then none
      else takeDirectives true handles rest
  | .directive (.handle name stem) :: rest =>
      if (handles.lookup name).isSome then none
      else takeDirectives version ((name, stem) :: handles) rest
  | tokens => some (handles, tokens)

/-- Read a document after the mark of its start. -/
def takeMarkedDocument (scope : Scope) (tokens : List Token) : Document :=
  match tokens with
  | [] => .broken
  | .directive _ :: _ => .single .empty false
  | .documentStart :: _ => .single .empty false
  | .documentEnd :: _ => .single .empty (endsStream tokens)
  | .streamEnd :: _ => .single .empty true
  | _ => takeRoot scope tokens

/-- The first document of a text, and whether it is the only one. -/
def Document.ofTokens (tokens : List Token) : Document :=
  match takeDirectives false [] tokens with
  | none => .broken
  | some (handles, rest) =>
      let scope := Scope.ofHandles handles
      match rest with
      | .documentStart :: rest => takeMarkedDocument scope rest
      | .streamEnd :: _ => if rest.length = tokens.length then .missing else .broken
      | _ => if rest.length = tokens.length then takeRoot scope tokens else .broken

/-- The document of a text. -/
def Document.ofText (text : String) : Document := .ofTokens (tokens text.toList)

end DualRail.Yaml
