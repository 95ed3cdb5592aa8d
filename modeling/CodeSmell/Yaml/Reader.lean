import CodeSmell.Yaml.Basic
import CodeSmell.Yaml.Token

/-!
# Reading YAML

The tokens of a text are put together to one tree.

* `Place` : where a node stands, which decides how it may be written;
* `Reading` : the tokens that are left, and the handles and anchors met so far;
* `Reading.node?` : reads a node, and with it all that is inside;
* `Document.parse?` : the document that a text holds.
-/

namespace CodeSmell.Yaml

/-- Where a node stands. -/
inductive Place where
  /-- In a flow collection, so that it may open no block. -/
  | flow
  | block
  /-- In a block mapping, where the items of a sequence need no indentation. -/
  | entry
deriving DecidableEq, Repr, Inhabited

/-- The state of reading nodes. -/
structure Reading where
  tokens : List Token
  /-- What the handles of tags stand for. -/
  handles : List (String × String) := []
  /-- The numbers of the anchors. -/
  anchors : List (String × Nat) := []
  /-- The nodes with anchors, in the order they begin. -/
  numbered : Array (Nat × Node) := #[]
deriving Repr, Inhabited

namespace Reading

def next (r : Reading) : Reading :=
  { r with tokens := r.tokens.tail }

def sees (r : Reading) (ts : List Token) : Bool :=
  r.tokens.head?.any ts.contains

/-! ## Anchors and tags -/

/-- A tag in full; its handle has to be known. -/
def fullTag? (r : Reading) (handle suffix : String) : Option String :=
  if handle.isEmpty then some suffix else (r.handles.lookup handle).map (· ++ suffix)

/-- The anchor and the tag that may stand before a node, in either order. -/
def properties? (r : Reading) : Option (Option String × Option String × Reading) :=
  match r.tokens with
  | .anchor a :: .tag h s :: rest | .tag h s :: .anchor a :: rest =>
    (r.fullTag? h s).map fun t => (some a, some t, { r with tokens := rest })
  | .anchor a :: rest => some (some a, none, { r with tokens := rest })
  | .tag h s :: rest => (r.fullTag? h s).map fun t => (none, some t, { r with tokens := rest })
  | _ => some (none, none, r)

/-- Gives an anchor its number, which is the count of the names before it, and keeps a slot for the
node that begins. -/
def begin (r : Reading) (anchor : Option String) : Reading :=
  match anchor with
  | none => r
  | some name =>
    { r with
      anchors := (name, r.anchors.length) :: r.anchors.filter (·.1 != name)
      numbered := r.numbered.push (r.anchors.length, .void) }

/-- Puts a node into the slot that was kept for it. -/
def finish (r : Reading) (slot : Nat) (anchor : Option String) (n : Node) : Reading :=
  match anchor with
  | none => r
  | some _ => { r with numbered := r.numbered.modify slot fun (number, _) => (number, n) }

/-! ## Nodes -/

mutual

def node? : Nat → Place → Reading → Option (Node × Reading)
  | 0, _, _ => none
  | fuel + 1, place, r =>
    match r.tokens with
    | .reference name :: _ => (r.anchors.lookup name).map fun number => (.reference number, r.next)
    | _ =>
      r.properties?.bind fun (anchor, tag, r) =>
        let slot := r.numbered.size
        (content? fuel place (anchor.isSome || tag.isSome) tag (r.begin anchor)).map fun (n, r) =>
          (n, r.finish slot anchor n)

/-- Reads what stands behind the anchor and tag of a node, which may be nothing if there is one. -/
def content? :
    Nat → Place → Bool → Option String → Reading → Option (Node × Reading)
  | 0, _, _, _, _ => none
  | fuel + 1, place, marked, tag, r =>
    let open? (items : Option (List Node × Reading)) : Option (Node × Reading) :=
      items.map fun (items, r) => (.sequence items, r)
    let pairs? (entries : Option (List (Node × Node) × Reading)) : Option (Node × Reading) :=
      entries.map fun (entries, r) => (.mapping entries, r)
    match r.tokens with
    | .scalar s :: _ => some (.scalar tag s, r.next)
    | .openBracket :: _ => open? (flowItems? fuel true r.next)
    | .openBrace :: _ => pairs? (flowPairs? fuel true r.next)
    | .entry :: _ =>
      if place == .entry then open? (looseItems? fuel r)
      else if marked then some (.scalar tag Scalar.empty, r)
      else none
    | .sequenceStart :: _ =>
      if place != .flow then open? (blockItems? fuel r.next)
      else if marked then some (.scalar tag Scalar.empty, r)
      else none
    | .mappingStart :: _ =>
      if place != .flow then pairs? (blockPairs? fuel r.next)
      else if marked then some (.scalar tag Scalar.empty, r)
      else none
    | _ => if marked then some (.scalar tag Scalar.empty, r) else none

/-- Reads a node unless one of some tokens shows that none is written. -/
def unless? : Nat → Place → List Token → Reading → Option (Node × Reading)
  | 0, _, _, _ => none
  | fuel + 1, place, ts, r => if r.sees ts then some (.empty, r) else node? fuel place r

def blockItems? : Nat → Reading → Option (List Node × Reading)
  | 0, _ => none
  | fuel + 1, r =>
    match r.tokens with
    | .blockEnd :: _ => some ([], r.next)
    | .entry :: _ =>
      (unless? fuel .block [.entry, .blockEnd] r.next).bind fun (item, r) =>
        (blockItems? fuel r).map fun (items, r) => (item :: items, r)
    | _ => none

/-- Reads the items of a sequence that is not indented. -/
def looseItems? : Nat → Reading → Option (List Node × Reading)
  | 0, _ => none
  | fuel + 1, r =>
    match r.tokens with
    | .entry :: _ =>
      (unless? fuel .block [.entry, .key, .value, .blockEnd] r.next).bind fun (item, r) =>
        (looseItems? fuel r).map fun (items, r) => (item :: items, r)
    | _ => some ([], r)

def blockPairs? : Nat → Reading → Option (List (Node × Node) × Reading)
  | 0, _ => none
  | fuel + 1, r =>
    match r.tokens with
    | .blockEnd :: _ => some ([], r.next)
    | .key :: _ =>
      (unless? fuel .entry [.key, .value, .blockEnd] r.next).bind fun (key, r) =>
        (valueOf? fuel .entry [.key, .value, .blockEnd] r).bind fun (value, r) =>
          (blockPairs? fuel r).map fun (entries, r) => ((key, value) :: entries, r)
    | _ => none

def valueOf? : Nat → Place → List Token → Reading → Option (Node × Reading)
  | 0, _, _, _ => none
  | fuel + 1, place, ts, r =>
    match r.tokens with
    | .value :: _ => unless? fuel place ts r.next
    | _ => some (.empty, r)

/-- Reads the items of a flow sequence and its end. A pair among them is a mapping of its own. -/
def flowItems? : Nat → Bool → Reading → Option (List Node × Reading)
  | 0, _, _ => none
  | fuel + 1, first, r =>
    match r.tokens with
    | .closeBracket :: _ => some ([], r.next)
    | t :: _ =>
      if !first && t != .comma then none
      else
        let r := if first then r else r.next
        match r.tokens with
        | .closeBracket :: _ => some ([], r.next)
        | .key :: _ =>
          (flowPair? fuel r.next).bind fun (item, r) =>
            (flowItems? fuel false r).map fun (items, r) => (item :: items, r)
        | _ =>
          (node? fuel .flow r).bind fun (item, r) =>
            (flowItems? fuel false r).map fun (items, r) => (item :: items, r)
    | [] => none

/-- Reads a pair in a flow sequence. A token that shows that the key is empty is passed. -/
def flowPair? : Nat → Reading → Option (Node × Reading)
  | 0, _ => none
  | fuel + 1, r =>
    let key :=
      if r.sees [.value, .comma, .closeBracket] then some (.empty, r.next) else node? fuel .flow r
    key.bind fun (key, r) =>
      (valueOf? fuel .flow [.comma, .closeBracket] r).map fun (value, r) =>
        (.mapping [(key, value)], r)

/-- Reads the entries of a flow mapping and its end. A key may stand alone. -/
def flowPairs? : Nat → Bool → Reading → Option (List (Node × Node) × Reading)
  | 0, _, _ => none
  | fuel + 1, first, r =>
    match r.tokens with
    | .closeBrace :: _ => some ([], r.next)
    | t :: _ =>
      if !first && t != .comma then none
      else
        let r := if first then r else r.next
        match r.tokens with
        | .closeBrace :: _ => some ([], r.next)
        | .key :: _ =>
          (unless? fuel .flow [.value, .comma, .closeBrace] r.next).bind fun (key, r) =>
            (valueOf? fuel .flow [.comma, .closeBrace] r).bind fun (value, r) =>
              (flowPairs? fuel false r).map fun (entries, r) => ((key, value) :: entries, r)
        | _ =>
          (node? fuel .flow r).bind fun (key, r) =>
            (flowPairs? fuel false r).map fun (entries, r) => ((key, .empty) :: entries, r)
    | [] => none

end

/-! ## Documents -/

/-- Reads the directives before a document: at most one version, which is 1.1 or 1.2, and handles,
none of them twice. -/
def directives? : List Token → Bool → List (String × String) →
    Option (List (String × String) × List Token)
  | .version major minor :: rest, seen, handles =>
    if seen || major != 1 || !(minor == 1 || minor == 2) then none
    else directives? rest true handles
  | .tagHandle handle start :: rest, seen, handles =>
    if handles.any (·.1 == handle) then none
    else directives? rest seen (handles ++ [(handle, start)])
  | ts, _, handles => some (handles, ts)

def knownHandles : List (String × String) :=
  [("!", "!"), ("!!", "tag:yaml.org,2002:")]

/-- Whether a token belongs to the directives or to the lines around documents. -/
def isOutside : Token → Bool
  | .version _ _ | .tagHandle _ _ | .documentStart | .documentEnd => true
  | _ => false

def root? (r : Reading) : Option (Node × Reading) :=
  node? (3 * (r.tokens.length + 1)) .block r

/-- Reads a document, with the directives and the line before it if there are any. -/
def document? (ts : List Token) : Option (Node × Reading) :=
  match ts with
  | [] => some (.void, { tokens := [] })
  | .version _ _ :: _ | .tagHandle _ _ :: _ | .documentStart :: _ =>
    match directives? ts false [] with
    | some (handles, .documentStart :: rest) =>
      let r : Reading := { tokens := rest, handles := handles ++ knownHandles }
      if rest.head?.all isOutside then some (.empty, r) else r.root?
    | _ => none
  | _ => { tokens := ts, handles := knownHandles : Reading }.root?

end Reading

namespace Document

/-- The document that a text holds, which may be no more than one. -/
def parse? (text : String) : Option Document :=
  ((Token.scan? text).bind Reading.document?).bind fun (root, r) =>
    if r.tokens.all (· == .documentEnd) then some ⟨root, r.numbered.toList⟩ else none

end Document

end CodeSmell.Yaml
