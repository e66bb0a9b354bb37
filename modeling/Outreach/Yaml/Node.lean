import Outreach.Yaml.Token

/-!
# The values of a YAML text

The tokens of a text make up one document: a tree of texts, lists and records, in blocks or in
brackets. A name in front of a value lets it stand in other places as well; a value that stands
inside itself never ends.
-/

namespace Outreach.Yaml

/-- A value of a document. -/
inductive Node where
  | scalar (text : String) (isWord : Bool) (tag : Option String)
  | list (items : List Node) (tag : Option String)
  | record (entries : List (Node × Node)) (tag : Option String)
  /-- A value that stands inside itself. -/
  | endless

namespace Node

/-- What stands where nothing is written. -/
def empty : Node :=
  .scalar "" true none

end Node

/-- The shorthands for the beginnings of tags. -/
abbrev Shorthands := List (String × String)

namespace Shorthands

/-- The shorthands that need not be declared. -/
def standard : Shorthands :=
  [("!", "!"), ("!!", "tag:yaml.org,2002:")]

/-- A tag in full; a shorthand has to be known. -/
def expand? (shorthands : Shorthands) (name : TagName) : Option String :=
  if name.handle.isEmpty then some name.suffix
  else (shorthands.lookup name.handle).map fun start => start ++ name.suffix

end Shorthands

/-- Tokens that are being made into values, with the names that values were given so far: each name
stands for the value that it was given to last. -/
structure Assembly where
  tokens : List Token
  names : List (String × Nat)
  values : List (Nat × Node)
  count : Nat

namespace Assembly

/-- Behind the first token. -/
def drop (a : Assembly) : Assembly :=
  { a with tokens := a.tokens.tail }

/-- The value that a name stands for. A value that is not complete yet would stand in itself. -/
def named? (a : Assembly) (name : String) : Option Node :=
  (a.names.lookup name).map fun i => (a.values.lookup i).getD .endless

/-- Gives a name to the value that comes. -/
def announce (a : Assembly) (name : Option String) : Assembly :=
  match name with
  | none => a
  | some name => { a with names := (name, a.count) :: a.names, count := a.count + 1 }

/-- Completes the value with a number. -/
def complete (a : Assembly) (name : Option String) (number : Nat) (node : Node) : Assembly :=
  match name with
  | none => a
  | some _ => { a with values := (number, node) :: a.values }

/-- The name and the tag in front of a value, in either order. -/
def properties? (shorthands : Shorthands) (a : Assembly) :
    Option (Option String × Option String × Assembly) :=
  let expand (tag : TagName) (name : Option String) (rest : List Token) :=
    (shorthands.expand? tag).map fun tag => (name, some tag, { a with tokens := rest })
  match a.tokens with
  | .anchor name :: .tag tag :: rest => expand tag (some name) rest
  | .tag tag :: .anchor name :: rest => expand tag (some name) rest
  | .anchor name :: rest => some (some name, none, { a with tokens := rest })
  | .tag tag :: rest => expand tag none rest
  | _ => some (none, none, a)

/-- Whether the next token leaves nothing for the value before it; `ends` are the tokens that do. -/
def isAt (a : Assembly) (ends : Token → Bool) : Bool :=
  a.tokens.head?.any ends

end Assembly

namespace Token

/-- The end of an item of a block. -/
def endsItem : Token → Bool
  | .entry | .blockEnd => true
  | _ => false

/-- The end of a key or value of a block. -/
def endsMember : Token → Bool
  | .key | .value | .blockEnd => true
  | _ => false

/-- The end of an item of a block whose items are not indented. -/
def endsLevelItem (t : Token) : Bool :=
  t.endsItem || t.endsMember

/-- The end of a value in brackets. -/
def endsFlow : Token → Bool
  | .comma | .bracketClose | .braceClose => true
  | _ => false

/-- The end of a key in brackets. -/
def endsFlowKey : Token → Bool
  | .value => true
  | t => t.endsFlow

end Token

mutual

/-- A value. In a block it may be a block itself, and as the value of a member a list whose items
are not indented. -/
def value? (shorthands : Shorthands) (inBlock asMember : Bool) :
    (fuel : Nat) → Assembly → Option (Node × Assembly)
  | 0, _ => none
  | fuel + 1, a =>
    match a.tokens with
    | .alias name :: _ => (a.named? name).map fun node => (node, a.drop)
    | _ => do
      let (name, tag, behind) ← a.properties? shorthands
      let number := a.count
      let (node, done) ← content? shorthands inBlock asMember name tag fuel (behind.announce name)
      some (node, done.complete name number node)

/-- A value behind its name and tag; with one of these it may be empty. A bare mark says nothing
about a text that is written. -/
def content? (shorthands : Shorthands) (inBlock asMember : Bool) (name tag : Option String) :
    (fuel : Nat) → Assembly → Option (Node × Assembly)
  | 0, _ => none
  | fuel + 1, a =>
    match a.tokens with
    | .scalar text isWord :: _ => some (.scalar text isWord (tag.filter (· ≠ "!")), a.drop)
    | .bracketOpen :: _ =>
      (flowItems? shorthands true fuel a.drop).map fun (items, a) => (.list items tag, a)
    | .braceOpen :: _ =>
      (flowMembers? shorthands true fuel a.drop).map fun (entries, a) => (.record entries tag, a)
    | .listStart :: _ =>
      if inBlock then (items? shorthands fuel a.drop).map fun (items, a) => (.list items tag, a)
      else none
    | .recordStart :: _ =>
      if inBlock then
        (members? shorthands fuel a.drop).map fun (entries, a) => (.record entries tag, a)
      else none
    | .entry :: _ =>
      if asMember then
        (levelItems? shorthands fuel a).map fun (items, a) => (.list items tag, a)
      else if name.isSome || tag.isSome then some (.scalar "" true tag, a)
      else none
    | _ => if name.isSome || tag.isSome then some (.scalar "" true tag, a) else none

/-- A value, or nothing where one of some tokens stands. -/
def optional? (shorthands : Shorthands) (inBlock asMember : Bool) (ends : Token → Bool) :
    (fuel : Nat) → Assembly → Option (Node × Assembly)
  | 0, _ => none
  | fuel + 1, a =>
    if a.isAt ends then some (.empty, a) else value? shorthands inBlock asMember fuel a

/-- The items of a block. -/
def items? (shorthands : Shorthands) : (fuel : Nat) → Assembly → Option (List Node × Assembly)
  | 0, _ => none
  | fuel + 1, a =>
    match a.tokens with
    | .entry :: _ => do
      let (item, a) ← optional? shorthands true false Token.endsItem fuel a.drop
      let (items, a) ← items? shorthands fuel a
      some (item :: items, a)
    | .blockEnd :: _ => some ([], a.drop)
    | _ => none

/-- The items of a block whose items are not indented. -/
def levelItems? (shorthands : Shorthands) : (fuel : Nat) → Assembly → Option (List Node × Assembly)
  | 0, _ => none
  | fuel + 1, a =>
    match a.tokens with
    | .entry :: _ => do
      let (item, a) ← optional? shorthands true false Token.endsLevelItem fuel a.drop
      let (items, a) ← levelItems? shorthands fuel a
      some (item :: items, a)
    | _ => some ([], a)

/-- The members of a block. -/
def members? (shorthands : Shorthands) :
    (fuel : Nat) → Assembly → Option (List (Node × Node) × Assembly)
  | 0, _ => none
  | fuel + 1, a =>
    match a.tokens with
    | .key :: _ => do
      let (key, a) ← optional? shorthands true true Token.endsMember fuel a.drop
      let (value, a) ← match a.tokens with
        | .value :: _ => optional? shorthands true true Token.endsMember fuel a.drop
        | _ => some (.empty, a)
      let (entries, a) ← members? shorthands fuel a
      some ((key, value) :: entries, a)
    | .blockEnd :: _ => some ([], a.drop)
    | _ => none

/-- What stands behind a colon in brackets; without a colon there is nothing. -/
def flowValue? (shorthands : Shorthands) : (fuel : Nat) → Assembly → Option (Node × Assembly)
  | 0, _ => none
  | fuel + 1, a =>
    match a.tokens with
    | .value :: _ => optional? shorthands false false Token.endsFlow fuel a.drop
    | _ => some (.empty, a)

/-- The items of a list in brackets. A key with its value makes up an item; an empty key there takes
the token behind it along. -/
def flowItems? (shorthands : Shorthands) (isFirst : Bool) :
    (fuel : Nat) → Assembly → Option (List Node × Assembly)
  | 0, _ => none
  | fuel + 1, a =>
    match isFirst, a.tokens with
    | _, .bracketClose :: _ => some ([], a.drop)
    | false, .comma :: .bracketClose :: _ => some ([], a.drop.drop)
    | false, .comma :: _ | true, _ => do
      let a := if isFirst then a else a.drop
      let (item, a) ← match a.tokens with
        | .key :: _ => do
          let (key, a) ←
            if a.drop.isAt Token.endsFlowKey then some (Node.empty, a.drop.drop)
            else value? shorthands false false fuel a.drop
          let (value, a) ← flowValue? shorthands fuel a
          some (.record [(key, value)] none, a)
        | _ => value? shorthands false false fuel a
      let (items, a) ← flowItems? shorthands false fuel a
      some (item :: items, a)
    | _, _ => none

/-- The members of a record in brackets. A value without a colon is a key with nothing behind it. -/
def flowMembers? (shorthands : Shorthands) (isFirst : Bool) :
    (fuel : Nat) → Assembly → Option (List (Node × Node) × Assembly)
  | 0, _ => none
  | fuel + 1, a =>
    match isFirst, a.tokens with
    | _, .braceClose :: _ => some ([], a.drop)
    | false, .comma :: .braceClose :: _ => some ([], a.drop.drop)
    | false, .comma :: _ | true, _ => do
      let a := if isFirst then a else a.drop
      let (key, value, a) ← match a.tokens with
        | .key :: _ => do
          let (key, a) ← optional? shorthands false false Token.endsFlowKey fuel a.drop
          let (value, a) ← flowValue? shorthands fuel a
          some (key, value, a)
        | _ => (value? shorthands false false fuel a).map fun (key, a) => (key, .empty, a)
      let (entries, a) ← flowMembers? shorthands false fuel a
      some ((key, value) :: entries, a)
    | _, _ => none

end

/-- The directives in front of a document: whether a version was given, and the shorthands. A
version other than 1.1 and 1.2 is an error, and so is saying a thing twice. -/
def directives? : List Token → (hasVersion : Bool) → (declared : Shorthands) →
    Option (Bool × Shorthands × List Token)
  | .directive (.version major minor) :: rest, hasVersion, declared =>
    if !hasVersion && major = 1 && (minor = 1 || minor = 2) then directives? rest true declared
    else none
  | .directive (.shorthand handle start) :: rest, hasVersion, declared =>
    if (declared.lookup handle).isSome then none
    else directives? rest hasVersion ((handle, start) :: declared)
  | rest, hasVersion, declared => some (hasVersion, declared, rest)

/-- Whether nothing of a document stands before a token. -/
def Token.endsDocument : Token → Bool
  | .directive _ | .documentStart | .documentEnd => true
  | _ => false

/-- The content of a document, and the tokens behind it. -/
def content (shorthands : Shorthands) (tokens : List Token) : Option (Node × List Token) :=
  (value? shorthands true false (4 * tokens.length + 4) ⟨tokens, [], [], 0⟩).map fun (node, a) =>
    (node, a.tokens)

/-- The only document of a text. What stands before it and is not part of it makes a mark of its
beginning necessary. -/
def document? (tokens : List Token) : Option Node := do
  let (hasVersion, declared, rest) ← directives? tokens false []
  let shorthands := declared ++ Shorthands.standard
  let (node, rest) ← match rest with
    | .documentStart :: rest =>
      if rest.head?.all Token.endsDocument then some (.empty, rest) else content shorthands rest
    | [] => if hasVersion || !declared.isEmpty then none else some (.empty, [])
    | rest => if hasVersion || !declared.isEmpty then none else content shorthands rest
  if rest.all fun t => match t with
    | .documentEnd => true
    | _ => false
  then some node else none

end Outreach.Yaml
