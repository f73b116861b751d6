import Autoflow.Yaml.Lexer

/-!
# The tree of a YAML text

`Tree.ofTokens?` reads the tokens of one document. What is left out counts as an empty plain
scalar. A second document is refused, and so is a text without any.
-/

namespace Autoflow.Yaml

/-- A YAML value. A scalar is plain if it was written without quotes. -/
inductive Tree where
  | scalar (text : String) (plain : Bool)
  | sequence (items : List Tree)
  | mapping (fields : List (Tree × Tree))
deriving Inhabited

namespace Tree

/-- What stands where nothing is written. -/
def blank : Tree := .scalar "" true

/-- A reader of the front of a list of tokens: its value and the rest. -/
abbrev Reader (α : Type) := List Token → Option (α × List Token)

/-- Reads a value, or nothing if the next token is one of those that end it. -/
def orBlank (ends : List Token) (read : Reader Tree) : Reader Tree := fun tokens =>
  if tokens.head?.any ends.contains then some (blank, tokens) else read tokens

/-- Reads the value of a key behind its colon, or nothing if there is no colon. -/
def valueOf (ends : List Token) (read : Reader Tree) : Reader Tree
  | .value :: rest => orBlank ends read rest
  | tokens => some (blank, tokens)

/-- Reads items up to a closing token, which is taken, with a comma behind each item but the
last one, where it may stand. The number bounds the items. -/
def flowItems {α : Type} (close : Token) (item : Reader α) : Nat → Reader (List α)
  | 0, _ => none
  | fuel + 1, tokens =>
    if tokens.head? = some close then some ([], tokens.tail)
    else do
      let (first, rest) ← item tokens
      match rest with
      | .flowEntry :: rest =>
        let (more, rest) ← flowItems close item fuel rest
        return (first :: more, rest)
      | next :: rest => if next = close then return ([first], rest) else none
      | [] => none

/-- Reads the items of a block sequence, each behind its hyphen. The number bounds the items. -/
def blockItems (ends : List Token) (read : Reader Tree) : Nat → Reader (List Tree)
  | 0, _ => none
  | fuel + 1, tokens =>
    match tokens with
    | .blockEntry :: rest => do
      let (first, rest) ← orBlank (.blockEntry :: ends) read rest
      let (more, rest) ← blockItems ends read fuel rest
      return (first :: more, rest)
    | _ => some ([], tokens)

/-- Reads the fields of a block mapping. The number bounds the fields. -/
def blockFields (read : Reader Tree) : Nat → Reader (List (Tree × Tree))
  | 0, _ => none
  | fuel + 1, tokens =>
    match tokens with
    | .key :: rest => do
      let (key, rest) ← orBlank [.key, .value, .blockEnd] read rest
      let (value, rest) ← valueOf [.key, .value, .blockEnd] read rest
      let (more, rest) ← blockFields read fuel rest
      return ((key, value) :: more, rest)
    | _ => some ([], tokens)

/-- Takes the token that closes a block collection. -/
def closed {α : Type} : α × List Token → Option (α × List Token)
  | (a, .blockEnd :: rest) => some (a, rest)
  | _ => none

/-- Reads an item of a flow sequence. A key makes it a mapping of one field; a key that is left
out takes the next token with it. -/
def flowItem (read : Reader Tree) : Reader Tree
  | .key :: rest => do
    let ends := [.value, .flowEntry, .flowSequenceEnd]
    let (key, rest) ←
      if rest.head?.any ends.contains then some (blank, rest.tail) else read rest
    let (value, rest) ← valueOf [.flowEntry, .flowSequenceEnd] read rest
    return (.mapping [(key, value)], rest)
  | tokens => read tokens

/-- Reads a field of a flow mapping. -/
def flowField (read : Reader Tree) : Reader (Tree × Tree)
  | .key :: rest => do
    let (key, rest) ← orBlank [.value, .flowEntry, .flowMappingEnd] read rest
    let (value, rest) ← valueOf [.flowEntry, .flowMappingEnd] read rest
    return ((key, value), rest)
  | tokens => do
    let (key, rest) ← read tokens
    return ((key, blank), rest)

/-- Reads a value of at most the given depth. Block collections are refused unless `block` is
set; `flush` allows the items of a sequence that has no indentation of its own. -/
def read : Nat → (block flush : Bool) → Reader Tree
  | 0, _, _, _ => none
  | depth + 1, block, flush, tokens =>
    let size := tokens.length + 1
    match tokens with
    | .scalar text plain :: rest => some (.scalar text plain, rest)
    | .flowSequenceStart :: rest => do
      let (items, rest) ←
        flowItems .flowSequenceEnd (flowItem (read depth false false)) size rest
      return (.sequence items, rest)
    | .flowMappingStart :: rest => do
      let (fields, rest) ←
        flowItems .flowMappingEnd (flowField (read depth false false)) size rest
      return (.mapping fields, rest)
    | .blockSequenceStart :: rest =>
      if block then do
        let (items, rest) ←
          (blockItems [.blockEnd] (read depth true false) size rest).bind closed
        return (.sequence items, rest)
      else none
    | .blockMappingStart :: rest =>
      if block then do
        let (fields, rest) ← (blockFields (read depth true true) size rest).bind closed
        return (.mapping fields, rest)
      else none
    | .blockEntry :: _ =>
      if flush then do
        let (items, rest) ←
          blockItems [.key, .value, .blockEnd] (read depth true false) size tokens
        return (.sequence items, rest)
      else none
    | _ => none

/-- Reads the value of a document. -/
def readRoot : Reader Tree
  | [] => none
  | .documentStart :: rest =>
    match rest with
    | [] => some (blank, [])
    | _ => orBlank [.documentStart, .documentEnd] (read rest.length true false) rest
  | tokens => read tokens.length true false tokens

/-- The tree of the only document in a list of tokens. -/
def ofTokens? (tokens : List Token) : Option Tree :=
  match readRoot tokens with
  | some (tree, rest) => if rest.all (· = .documentEnd) then some tree else none
  | none => none

end Tree

/-- The tree of a text, nothing if it is malformed. -/
def Tree.parse? (text : String) : Option Tree := (Token.scan text).bind ofTokens?

end Autoflow.Yaml
