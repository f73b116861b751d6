import Autoflow.Json.Reader
import Autoflow.Yaml.Token

/-!
# The tokens of a text

`Token.scan` splits a text into tokens. In block style the column of a token opens and closes
collections. A key may turn out to be one only at the colon behind it: a place where a key may
stand is remembered, for at most one line and 1024 bytes, and the token that says so is
put in afterwards. A key that starts at the column of its mapping has to find its colon.
-/

namespace Autoflow.Yaml

/-- A place at which a key may have started. -/
structure PendingKey where
  mark : Mark
  /-- The number of tokens before the key. -/
  place : Nat
  /-- Whether the colon has to come. -/
  required : Bool

/-- How far a text has been split into tokens. -/
structure Lexer where
  rest : List Char
  mark : Mark := {}
  /-- The tokens so far, the latest first. -/
  tokens : List Token := []
  /-- The column of the innermost block collection, and of those around it. -/
  indent : Int := -1
  indents : List Int := []
  /-- The place of a possible key, for each open flow collection and for the block around. -/
  keys : List (Option PendingKey) := [none]
  /-- Whether a key may start here. -/
  keyAllowed : Bool := true

/-- Blanks and breaks between two words. -/
structure Gap where
  spaces : List Char := []
  breaks : List Char := []

namespace Gap

/-- What stands for a gap in the text: its blanks, or a single space for a line break, or the
breaks behind the first one. -/
def text (g : Gap) : List Char :=
  match g.breaks with
  | [] => g.spaces
  | '\n' :: [] => [' ']
  | '\n' :: more => more
  | all => all

end Gap

namespace Lexer

/-- Whether the place lies in a flow collection. -/
def inFlow (s : Lexer) : Bool := 1 < s.keys.length

/-- Passes the next character. -/
def skip (s : Lexer) : Lexer :=
  match s.rest with
  | [] => s
  | c :: rest => { s with rest, mark := s.mark.after c }

/-- Passes several characters. -/
def skipMany (s : Lexer) : Nat → Lexer
  | 0 => s
  | n + 1 => s.skip.skipMany n

/-- Adds a token. -/
def emit (s : Lexer) (t : Token) : Lexer := { s with tokens := t :: s.tokens }

/-- Adds a token behind the first `place` ones. -/
def emitAt (s : Lexer) (place : Nat) (t : Token) : Lexer :=
  let later := s.tokens.length - place
  { s with tokens := s.tokens.take later ++ t :: s.tokens.drop later }

/-- Whether a byte order mark starts a line here. -/
def atByteOrderMark (s : Lexer) : Bool := s.mark.column = 0 && s.rest.head? = some '\ufeff'

/-- Passes blanks, comments, line ends and the byte order mark at the start of a line, which takes
up a column. The first argument bounds the characters. -/
def toToken : Nat → Lexer → Lexer
  | 0, s => s
  | fuel + 1, s =>
    match s.rest with
    | [] => s
    | c :: rest =>
      if c = ' ' || s.atByteOrderMark then toToken fuel s.skip
      else if c = '\t' && (s.inFlow || !s.keyAllowed) then toToken fuel s.skip
      else if c = '#' then
        toToken fuel (s.skipMany (1 + (rest.takeWhile fun c => !isBreak c).length))
      else if isBreak c then
        toToken fuel (if s.inFlow then s.skip else { s.skip with keyAllowed := true })
      else s

/-- Gives up a possible key. Nothing if its colon had to come. -/
def giveUp : Option PendingKey → Option (Option PendingKey)
  | none => some none
  | some k => if k.required then none else some none

/-- Gives up the possible keys that lie too far back. -/
def dropStale (s : Lexer) : Option Lexer := do
  let keys ← s.keys.mapM fun k =>
    match k with
    | none => some none
    | some p =>
      if p.mark.line < s.mark.line || p.mark.index + 1024 < s.mark.index then giveUp k else some k
  return { s with keys }

/-- Gives up the possible key of the innermost collection. -/
def dropKey (s : Lexer) : Option Lexer := do
  match s.keys with
  | [] => return s
  | k :: outer => return { s with keys := (← giveUp k) :: outer }

/-- Remembers that a key may start here. -/
def noteKey (s : Lexer) : Option Lexer := do
  if !s.keyAllowed then return s
  let s ← s.dropKey
  let key : PendingKey :=
    { mark := s.mark, place := s.tokens.length
      required := !s.inFlow && s.indent = (s.mark.column : Int) }
  return { s with keys := some key :: s.keys.tail }

/-- Opens a block collection at a column, with its token behind the first `place` ones. -/
def openBlock (s : Lexer) (column : Nat) (place : Nat) (t : Token) : Lexer :=
  if !s.inFlow && s.indent < (column : Int) then
    { s.emitAt place t with indent := column, indents := s.indent :: s.indents }
  else s

/-- Closes the block collections that lie to the right of a column. -/
def closeBlocks (column : Int) : Nat → Lexer → Lexer
  | 0, s => s
  | fuel + 1, s =>
    if !s.inFlow && column < s.indent then
      closeBlocks column fuel
        { s.emit .blockEnd with indent := s.indents.headD (-1), indents := s.indents.tail }
    else s

/-- Closes the block collections that lie to the right of a column. -/
def closeTo (s : Lexer) (column : Int) : Lexer := closeBlocks column s.indents.length s

/-- Whether a line starts here with three of a character and nothing right behind. -/
def atMarker (s : Lexer) (c : Char) : Bool :=
  s.mark.column = 0 && s.rest.take 3 = [c, c, c] && atBlank (s.rest.drop 3)

/-- Whether a document starts or ends here. -/
def atDocument (s : Lexer) : Bool := s.atMarker '-' || s.atMarker '.'

/-- Passes blanks and breaks. Once a line has ended, a tab left of `least` is refused. -/
def gap (least : Int) : Nat → Gap → Lexer → Option (Gap × Lexer)
  | 0, g, s => some (g, s)
  | fuel + 1, g, s =>
    match s.rest with
    | [] => some (g, s)
    | c :: _ =>
      if isBlank c then
        if g.breaks.isEmpty then gap least fuel { g with spaces := g.spaces ++ [c] } s.skip
        else if c = '\t' && (s.mark.column : Int) < least then none
        else gap least fuel g s.skip
      else if isBreak c then gap least fuel { spaces := [], breaks := g.breaks ++ [c] } s.skip
      else some (g, s)

/-- The characters that open, close and separate flow collections. -/
def isFlowSign (c : Char) : Bool := c = ',' || c = '[' || c = ']' || c = '\x7b' || c = '\x7d'

/-- Takes a word of a plain text. A colon ends it in front of a blank; in a flow collection the
signs of flow style end it, and a colon in front of one is refused. -/
def plainWord : Nat → List Char → Lexer → Option (List Char × Lexer)
  | 0, acc, s => some (acc.reverse, s)
  | fuel + 1, acc, s =>
    match s.rest with
    | [] => some (acc.reverse, s)
    | c :: rest =>
      if isBlank c || isBreak c then some (acc.reverse, s)
      else if c = ':' && s.inFlow && rest.head?.any fun d => isFlowSign d || d = '?' then none
      else if c = ':' && atBlank rest then some (acc.reverse, s)
      else if s.inFlow && isFlowSign c then some (acc.reverse, s)
      else plainWord fuel (c :: acc) s.skip

/-- Takes a plain text: the words up to a comment, a line that is not indented enough or the
next sign, with the gaps between them. The flag says whether a line ended behind it. -/
def plainText : Nat → List Char → Gap → Lexer → Option (List Char × Bool × Lexer)
  | 0, acc, g, s => some (acc, !g.breaks.isEmpty, s)
  | fuel + 1, acc, g, s =>
    if s.atDocument || s.rest.head? = some '#' then some (acc, !g.breaks.isEmpty, s)
    else do
      let (word, s) ← plainWord s.rest.length [] s
      let acc := if word.isEmpty then acc else acc ++ g.text ++ word
      let g := if word.isEmpty then g else {}
      match s.rest with
      | c :: _ =>
        if isBlank c || isBreak c then
          let (g, s) ← gap (s.indent + 1) s.rest.length {} s
          if !s.inFlow && (s.mark.column : Int) < s.indent + 1 then
            return (acc, !g.breaks.isEmpty, s)
          else plainText fuel acc g s
        else return (acc, !g.breaks.isEmpty, s)
      | [] => return (acc, !g.breaks.isEmpty, s)

/-- The character of an escape with one letter. -/
def shortEscape? : Char → Option Char
  | '0' => some '\x00'
  | 'a' => some '\x07'
  | 'b' => some '\x08'
  | 't' => some '\t'
  | '\t' => some '\t'
  | 'n' => some '\n'
  | 'v' => some '\x0b'
  | 'f' => some '\x0c'
  | 'r' => some '\r'
  | 'e' => some '\x1b'
  | ' ' => some ' '
  | '"' => some '"'
  | '/' => some '/'
  | '\\' => some '\\'
  | 'N' => some '\u0085'
  | '_' => some '\u00a0'
  | 'L' => some '\u2028'
  | 'P' => some '\u2029'
  | _ => none

/-- The number of hexadecimal digits behind an escape letter. -/
def hexLength? : Char → Option Nat
  | 'x' => some 2
  | 'u' => some 4
  | 'U' => some 8
  | _ => none

/-- Takes the escape behind a backslash. -/
def escape (s : Lexer) : Option (Char × Lexer) :=
  match s.rest with
  | [] => none
  | c :: rest =>
    match shortEscape? c with
    | some d => some (d, s.skip)
    | none => do
      let n ← hexLength? c
      let digits ← (rest.take n).mapM Json.hexValue?
      if digits.length ≠ n then none
      else
        let code := digits.foldl (fun v d => v * 16 + d) 0
        if (0xD800 ≤ code && code ≤ 0xDFFF) || 0x10FFFF < code then none
        else some (Char.ofNat code, s.skipMany (1 + n))

/-- Takes a word of a quoted text, up to its quote, a blank or a break. The flag says whether an
escaped line end stopped it, which has been passed. -/
def quotedWord (quote : Char) : Nat → List Char → Lexer → Option (List Char × Bool × Lexer)
  | 0, acc, s => some (acc.reverse, false, s)
  | fuel + 1, acc, s =>
    match s.rest with
    | [] => some (acc.reverse, false, s)
    | c :: rest =>
      if isBlank c || isBreak c then some (acc.reverse, false, s)
      else if quote = '\'' && c = quote && rest.head? = some quote then
        quotedWord quote fuel (c :: acc) (s.skipMany 2)
      else if c = quote then some (acc.reverse, false, s)
      else if quote = '"' && c = '\\' then
        if rest.head?.any isBreak then some (acc.reverse, true, s.skipMany 2)
        else (escape s.skip).bind fun (d, s) => quotedWord quote fuel (d :: acc) s
      else quotedWord quote fuel (c :: acc) s.skip

/-- Takes a gap behind an escaped line end: blanks are dropped and breaks are kept. -/
def gapBehindEscape : Nat → List Char → Lexer → List Char × Lexer
  | 0, breaks, s => (breaks, s)
  | fuel + 1, breaks, s =>
    match s.rest with
    | [] => (breaks, s)
    | c :: _ =>
      if isBlank c then gapBehindEscape fuel breaks s.skip
      else if isBreak c then gapBehindEscape fuel (breaks ++ [c]) s.skip
      else (breaks, s)

/-- Takes a quoted text behind its opening quote, up to and with the closing one. -/
def quotedText (quote : Char) : Nat → List Char → Lexer → Option (List Char × Lexer)
  | 0, _, _ => none
  | fuel + 1, acc, s =>
    if s.atDocument || s.rest.isEmpty then none
    else do
      let (word, escaped, s) ← quotedWord quote s.rest.length [] s
      let acc := acc ++ word
      if s.rest.head? = some quote && !escaped then return (acc, s.skip)
      else if escaped then
        let (breaks, s) := gapBehindEscape s.rest.length [] s
        if s.rest.head? = some quote && breaks.isEmpty then return (acc, s.skip)
        else quotedText quote fuel (acc ++ breaks) s
      else
        let (g, s) ← gap 0 s.rest.length {} s
        quotedText quote fuel (acc ++ g.text) s

/-- Takes a plain text as a token. -/
def scanPlain (s : Lexer) : Option Lexer := do
  let s ← s.noteKey
  let (text, ended, s) ← plainText (s.rest.length + 1) [] {} { s with keyAllowed := false }
  return { s.emit (.scalar (String.ofList text) true) with keyAllowed := ended }

/-- Takes a quoted text as a token. -/
def scanQuoted (s : Lexer) (quote : Char) : Option Lexer := do
  let s ← s.noteKey
  let (text, s) ← quotedText quote (s.rest.length + 1) [] { s.skip with keyAllowed := false }
  return s.emit (.scalar (String.ofList text) false)

/-- Opens a flow collection. -/
def openFlow (s : Lexer) (t : Token) : Option Lexer := do
  let s ← s.noteKey
  return { s.skip.emit t with keys := none :: s.keys, keyAllowed := true }

/-- Closes a flow collection. -/
def closeFlow (s : Lexer) (t : Token) : Option Lexer := do
  let s ← s.dropKey
  let keys := if s.inFlow then s.keys.tail else s.keys
  return { s.skip.emit t with keys, keyAllowed := false }

/-- Passes a comma. -/
def scanFlowEntry (s : Lexer) : Option Lexer := do
  let s ← s.dropKey
  return { s.skip.emit .flowEntry with keyAllowed := true }

/-- Passes the hyphen of an item. -/
def scanBlockEntry (s : Lexer) : Option Lexer := do
  if !s.inFlow && !s.keyAllowed then none
  let s := s.openBlock s.mark.column s.tokens.length .blockSequenceStart
  let s ← s.dropKey
  return { s.skip.emit .blockEntry with keyAllowed := true }

/-- Passes the question mark of a key. -/
def scanKey (s : Lexer) : Option Lexer := do
  if !s.inFlow && !s.keyAllowed then none
  let s := s.openBlock s.mark.column s.tokens.length .blockMappingStart
  let s ← s.dropKey
  return { s.skip.emit .key with keyAllowed := !s.inFlow }

/-- Passes the colon of a value. -/
def scanValue (s : Lexer) : Option Lexer :=
  match s.keys with
  | some k :: outer =>
    let s := s.emitAt k.place .key
    let s := s.openBlock k.mark.column k.place .blockMappingStart
    some { s.skip.emit .value with keys := none :: outer, keyAllowed := false }
  | _ =>
    if s.inFlow then some { s.skip.emit .value with keyAllowed := false }
    else if s.keyAllowed then
      let s := s.openBlock s.mark.column s.tokens.length .blockMappingStart
      some { s.skip.emit .value with keyAllowed := true }
    else none

/-- Passes the marker at the start or the end of a document. -/
def scanDocument (s : Lexer) (t : Token) : Option Lexer := do
  let s := s.closeTo (-1)
  let s ← s.dropKey
  return { (s.skipMany 3).emit t with keyAllowed := false }

/-- Whether a plain text may start with a character, given what follows it. -/
def startsPlain (s : Lexer) (c : Char) (rest : List Char) : Bool :=
  if c = '-' then !rest.head?.any isBlank
  else if c = '?' || c = ':' then !s.inFlow && !atBlank rest
  else !isBlank c && !("?:,[]\x7b\x7d#&*!|>'\"%@\x60".toList.contains c)

/-- Takes the next token, which starts with a character. -/
def scanAt (s : Lexer) (c : Char) (rest : List Char) : Option Lexer :=
  if s.atMarker '-' then s.scanDocument .documentStart
  else if s.atMarker '.' then s.scanDocument .documentEnd
  else if c = '%' && s.mark.column = 0 then none
  else if c = '[' then s.openFlow .flowSequenceStart
  else if c = '\x7b' then s.openFlow .flowMappingStart
  else if c = ']' then s.closeFlow .flowSequenceEnd
  else if c = '\x7d' then s.closeFlow .flowMappingEnd
  else if c = ',' then s.scanFlowEntry
  else if c = '-' && atBlank rest then s.scanBlockEntry
  else if c = '?' && (s.inFlow || atBlank rest) then s.scanKey
  else if c = ':' && (s.inFlow || atBlank rest) then s.scanValue
  else if c = '\'' || c = '"' then s.scanQuoted c
  else if s.startsPlain c rest then s.scanPlain
  else none

/-- Closes everything at the end of the text. -/
def finish (s : Lexer) : Option Lexer := (s.closeTo (-1)).dropKey

/-- Takes all tokens. The first argument bounds their number. -/
def scanAll : Nat → Lexer → Option Lexer
  | 0, _ => none
  | fuel + 1, s => do
    let s ← (toToken (s.rest.length + 1) s).dropStale
    let s := s.closeTo s.mark.column
    match s.rest with
    | [] => s.finish
    | c :: rest => scanAll fuel (← s.scanAt c rest)

end Lexer

/-- The tokens of a text, nothing if it is malformed. -/
def Token.scan (text : String) : Option (List Token) :=
  let chars := text.toList
  if chars.all isAllowed then
    (Lexer.scanAll (chars.length + 2) { rest := unifyBreaks chars }).map fun s => s.tokens.reverse
  else none

end Autoflow.Yaml
