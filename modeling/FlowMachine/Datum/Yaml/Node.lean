import FlowMachine.Datum.Yaml.Scalar
import FlowMachine.Datum.Yaml.Token

/-!
# Nodes of a YAML text

A document is one node: a scalar, a list, a mapping, or another node's name. Each has a tag, as
written or by its form. A node that is left out is an empty scalar.
-/
namespace FlowMachine.Yaml

inductive Node where
  | scalar (tag : Tag) (text : String)
  | list (tag : Tag) (items : List Node)
  | map (tag : Tag) (entries : List (Node × Node))
  | alias (name : String)
  | anchored (name : String) (node : Node)
deriving Repr

/-- What stands in front of a node: the name that it gets, and its tag. -/
structure Properties where
  anchor : Option String := none
  tag : Option String := none
deriving DecidableEq, Repr

namespace Properties

/-- Reads what stands in front of a node, in either order. -/
def read : List Token → Properties × List Token
  | .anchor name :: .tag tag :: rest => (⟨some name, some tag⟩, rest)
  | .tag tag :: .anchor name :: rest => (⟨some name, some tag⟩, rest)
  | .anchor name :: rest => (⟨some name, none⟩, rest)
  | .tag tag :: rest => (⟨none, some tag⟩, rest)
  | ts => ({}, ts)

def isEmpty (p : Properties) : Bool := p.anchor.isNone && p.tag.isNone

/-- The tag as written, or else by the form of the node. The exclamation mark alone asks for the
form. -/
def tagOr (p : Properties) (form : Tag) : Tag :=
  match p.tag with
  | none => form
  | some name => if name == "!" then form else .ofName name

/-- The tag of a scalar. Only a plain scalar has a form, unless it is asked for. -/
def scalarTag (p : Properties) (text : String) (plain : Bool) : Tag :=
  p.tagOr (if plain || p.tag == some "!" then .ofPlain text else .text)

/-- The node under its name. -/
def name (p : Properties) (node : Node) : Node :=
  match p.anchor with
  | some name => .anchored name node
  | none => node

end Properties

namespace Node

/-- A node that is left out. -/
def empty : Node := .scalar .null ""

/-- Where an item of an indented list can be left out. -/
def endsItem : List Token → Bool
  | .item :: _ => true
  | .blockEnd :: _ => true
  | _ => false

/-- Where a key or a value of an indented mapping can be left out. -/
def endsPart : List Token → Bool
  | .key :: _ => true
  | .value :: _ => true
  | .blockEnd :: _ => true
  | _ => false

/-- Where a part of a list or a mapping in brackets can be left out. -/
def endsFlow : List Token → Bool
  | .comma :: _ => true
  | .closeList :: _ => true
  | .closeMap :: _ => true
  | _ => false

/-- The fault of tokens that cannot follow. -/
def unexpected : List Token → Fault
  | .stop cause :: _ => .value cause
  | _ => .malformed

/-- What is read, and the tokens behind it. -/
abbrev Reading (α : Type) := Except Fault (α × List Token)

/-- A node that may be left out. -/
def orEmpty (absent : Bool) (ts : List Token) (node : Reading Node) : Reading Node :=
  if absent then .ok (empty, ts) else node

mutual

/-- Reads a node. Blocks are allowed outside of brackets, and a list that is not indented where it
is a part of a mapping. -/
def read : Nat → Bool → Bool → List Token → Reading Node
  | 0, _, _, _ => .error .malformed
  | fuel + 1, blocks, flat, ts =>
    match ts with
    | .alias name :: rest => .ok (.alias name, rest)
    | _ =>
      let p := Properties.read ts
      (readContent fuel blocks flat p.1 p.2).map fun r => (p.1.name r.1, r.2)

/-- Reads a node behind its properties. A node that has some can be left out. -/
def readContent : Nat → Bool → Bool → Properties → List Token → Reading Node
  | 0, _, _, _, _ => .error .malformed
  | fuel + 1, blocks, flat, p, ts =>
    let absent : Reading Node :=
      if p.isEmpty then .error (unexpected ts) else .ok (.scalar (p.scalarTag "" true) "", ts)
    let list (items : Reading (List Node)) : Reading Node :=
      items.map fun r => (.list (p.tagOr .list) r.1, r.2)
    let map (entries : Reading (List (Node × Node))) : Reading Node :=
      entries.map fun r => (.map (p.tagOr .map) r.1, r.2)
    match ts with
    | .scalar s plain :: rest => .ok (.scalar (p.scalarTag s plain) s, rest)
    | .openList :: rest => list (readItems fuel true rest)
    | .openMap :: rest => map (readEntries fuel true rest)
    | .sequenceStart :: rest => if blocks then list (readBlockItems fuel rest) else absent
    | .mappingStart :: rest => if blocks then map (readBlockEntries fuel rest) else absent
    | .item :: _ => if flat then list (readFlatItems fuel ts) else absent
    | .stop cause :: _ => .error (.value cause)
    | _ => absent

/-- Reads the items of an indented list. -/
def readBlockItems : Nat → List Token → Reading (List Node)
  | 0, _ => .error .malformed
  | fuel + 1, ts =>
    match ts with
    | .blockEnd :: rest => .ok ([], rest)
    | .item :: rest =>
      match orEmpty (endsItem rest) rest (read fuel true false rest) with
      | .error fault => .error fault
      | .ok (node, rest) => (readBlockItems fuel rest).map fun r => (node :: r.1, r.2)
    | _ => .error (unexpected ts)

/-- Reads the items of a list that is not indented. -/
def readFlatItems : Nat → List Token → Reading (List Node)
  | 0, _ => .error .malformed
  | fuel + 1, ts =>
    match ts with
    | .item :: rest =>
      match orEmpty (endsItem rest || endsPart rest) rest (read fuel true false rest) with
      | .error fault => .error fault
      | .ok (node, rest) => (readFlatItems fuel rest).map fun r => (node :: r.1, r.2)
    | _ => .ok ([], ts)

/-- Reads the entries of an indented mapping. -/
def readBlockEntries : Nat → List Token → Reading (List (Node × Node))
  | 0, _ => .error .malformed
  | fuel + 1, ts =>
    match ts with
    | .blockEnd :: rest => .ok ([], rest)
    | .key :: rest =>
      match orEmpty (endsPart rest) rest (read fuel true true rest) with
      | .error fault => .error fault
      | .ok (key, rest) =>
        let value := match rest with
          | .value :: rest => orEmpty (endsPart rest) rest (read fuel true true rest)
          | _ => .ok (empty, rest)
        match value with
        | .error fault => .error fault
        | .ok (value, rest) =>
          (readBlockEntries fuel rest).map fun r => ((key, value) :: r.1, r.2)
    | _ => .error (unexpected ts)

/-- Reads a key and its value within brackets, behind the mark of the key. -/
def readPair : Nat → List Token → Reading (Node × Node)
  | 0, _ => .error .malformed
  | fuel + 1, ts =>
    let absent := match ts with
      | .value :: _ => true
      | _ => endsFlow ts
    match orEmpty absent ts (read fuel false false ts) with
    | .error fault => .error fault
    | .ok (key, .value :: rest) =>
      (orEmpty (endsFlow rest) rest (read fuel false false rest)).map fun r => ((key, r.1), r.2)
    | .ok (key, rest) => .ok ((key, empty), rest)

/-- Reads the items of a list in brackets. -/
def readItems : Nat → Bool → List Token → Reading (List Node)
  | 0, _, _ => .error .malformed
  | fuel + 1, first, ts =>
    match ts with
    | .closeList :: rest => .ok ([], rest)
    | _ =>
      let start := if first then some ts else match ts with
        | .comma :: rest => some rest
        | _ => none
      match start with
      | none => .error (unexpected ts)
      | some (.closeList :: rest) => .ok ([], rest)
      | some (.key :: rest) =>
        match readPair fuel rest with
        | .error fault => .error fault
        | .ok (pair, rest) =>
          (readItems fuel false rest).map fun r => (.map .map [pair] :: r.1, r.2)
      | some ts =>
        match read fuel false false ts with
        | .error fault => .error fault
        | .ok (node, rest) => (readItems fuel false rest).map fun r => (node :: r.1, r.2)

/-- Reads the entries of a mapping in brackets. -/
def readEntries : Nat → Bool → List Token → Reading (List (Node × Node))
  | 0, _, _ => .error .malformed
  | fuel + 1, first, ts =>
    match ts with
    | .closeMap :: rest => .ok ([], rest)
    | _ =>
      let start := if first then some ts else match ts with
        | .comma :: rest => some rest
        | _ => none
      match start with
      | none => .error (unexpected ts)
      | some (.closeMap :: rest) => .ok ([], rest)
      | some (.key :: rest) =>
        match readPair fuel rest with
        | .error fault => .error fault
        | .ok (pair, rest) => (readEntries fuel false rest).map fun r => (pair :: r.1, r.2)
      | some ts =>
        match read fuel false false ts with
        | .error fault => .error fault
        | .ok (node, rest) =>
          (readEntries fuel false rest).map fun r => ((node, empty) :: r.1, r.2)

end

/-- What is known in front of a document: whether its version was named, and its handles. -/
structure Preamble where
  versioned : Bool := false
  handles : List (String × String) := []

namespace Preamble

/-- Adds a directive. At most one names a version, only the first version is known, and no handle is
given twice. -/
def add (p : Preamble) : Directive → Option Preamble
  | .version major => if p.versioned || major != 1 then none else some { p with versioned := true }
  | .handle name expansion =>
    if (p.handles.lookup name).isSome then none
    else some { p with handles := (name, expansion) :: p.handles }
  | .reserved => some p

/-- Reads the directives of a document. -/
def read : Preamble → List Token → Option (Preamble × List Token)
  | p, .directive d :: rest =>
    match p.add d with
    | some p => read p rest
    | none => none
  | p, ts => some (p, ts)

/-- What a handle is short for. Two handles are always known. -/
def expansion? (p : Preamble) (handle : String) : Option String :=
  (p.handles ++ [("!", "!"), ("!!", standardHandle)]).lookup handle

/-- The tokens with every tag in full. -/
def expand (p : Preamble) (ts : List Token) : Option (List Token) :=
  ts.mapM fun t => match t with
    | .shorthand handle suffix => (p.expansion? handle).map fun text => .tag (text ++ suffix)
    | t => some t

end Preamble

/-- Names are given once and before they are used, where `given` are the names so far. -/
def namesInOrder (given : List String) : List Token → Bool
  | [] => true
  | .anchor name :: rest => !given.contains name && namesInOrder (name :: given) rest
  | .alias name :: rest => given.contains name && namesInOrder given rest
  | _ :: rest => namesInOrder given rest

/-- Where a document has no content. -/
def endsDocument : List Token → Bool
  | [] => true
  | .directive _ :: _ => true
  | .documentStart :: _ => true
  | .documentEnd :: _ => true
  | _ => false

/-- Nothing but ends of documents is left. -/
def onlyEnds (ts : List Token) : Bool := ts.all (· == .documentEnd)

/-- Reads the node of a document, up to the end of the text. -/
def readAll (explicit : Bool) (ts : List Token) : Except Fault Node :=
  match orEmpty (explicit && endsDocument ts) ts (read (3 * ts.length + 8) true false ts) with
  | .error fault => .error fault
  | .ok (node, rest) =>
    if onlyEnds rest then .ok node
    else .error (unexpected (rest.dropWhile (· == .documentEnd)))

/-- Reads the one document of a text, if there is one. Directives ask for a mark behind them. -/
def readDocument (ts : List Token) : Except Fault (Option Node) :=
  if ts.isEmpty then .ok none
  else if !namesInOrder [] ts then .error .malformed
  else
    match Preamble.read {} ts with
    | none => .error .malformed
    | some (p, rest) =>
      match p.expand rest with
      | none => .error .malformed
      | some (.documentStart :: rest) => (readAll true rest).map some
      | some rest =>
        if rest.length < ts.length then .error (unexpected rest) else (readAll false rest).map some

end Node

end FlowMachine.Yaml
