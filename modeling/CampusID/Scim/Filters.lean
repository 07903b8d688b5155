import CampusID.Audit.Values

/-!
# Filters and paths

The grammar of SCIM filters and of the paths of a PATCH: the syntax tree, the tokenizer and the
recursive descent over its tokens, with every refusal and its text.

The tokenizer goes through the characters one by one.  At the first character of a token it reads
the whole token, and then passes over as many characters as the token has left.  The parser takes
the parser of a nested filter as an argument, which is how the limit on nesting ends its
recursion; a chain of `and` or `or` takes at most one round for each token.

What the language has tables for is a parameter (`Builtins`): lower case, decimal digits, and
reading and comparing numbers.
-/

namespace CampusID
namespace Scim

open Audit (Number)

/-- The operations of the language that are more than a few lines: `str.lower`, the digits of a
pattern, `int` and `float` of a number token, and `==`, `<` and `<=` of numbers.  Of lower case it
is known what it makes of ASCII text, and that it leaves nothing of nothing else. -/
structure Builtins where
  lower : String → String
  lower_ascii : ∀ s, Text.isAscii s = true → lower s = Text.lower s
  lower_eq_empty : ∀ s, lower s = "" → s = ""
  isDigit : Char → Bool
  toInt : String → Int
  toFloat : String → Number
  numEq : Number → Number → Bool
  numLt : Number → Number → Bool
  numLe : Number → Number → Bool

/-- `MAX_FILTER_LENGTH`. -/
def maxFilterLength : Nat := 4096

/-- `MAX_DEPTH`. -/
def maxDepth : Nat := 20

/-- `ScimFilterError`. -/
structure ScimFilterError where
  text : String
  deriving DecidableEq, Repr

/-! ## The syntax tree -/

/-- `Operator`. -/
inductive Operator where
  | eq | ne | co | sw | ew | gt | ge | lt | le
  deriving DecidableEq, Repr

/-- `Operator(word)`, where it does not raise. -/
def Operator.ofWord (word : String) : Option Operator :=
  if word = "eq" then some .eq
  else if word = "ne" then some .ne
  else if word = "co" then some .co
  else if word = "sw" then some .sw
  else if word = "ew" then some .ew
  else if word = "gt" then some .gt
  else if word = "ge" then some .ge
  else if word = "lt" then some .lt
  else if word = "le" then some .le
  else none

/-- `AttrPath`: `[urn:]attribute[.sub]`. -/
structure AttrPath where
  attributeName : String
  subAttribute : Option String := none
  urn : Option String := none
  deriving DecidableEq

/-- `str(path)`. -/
def AttrPath.text (path : AttrPath) : String :=
  let name := match path.subAttribute with
    | some sub => path.attributeName ++ "." ++ sub
    | none => path.attributeName
  match path.urn with
  | some urn => urn ++ ":" ++ name
  | none => name

/-- The value a comparison is with. -/
inductive Literal where
  | null
  | bool (b : Bool)
  | num (n : Number)
  | str (s : String)
  deriving DecidableEq

/-- `Node`. -/
inductive Node where
  | comparison (path : AttrPath) (operator : Operator) (value : Literal)
  | present (path : AttrPath)
  | valuePath (path : AttrPath) (predicate : Node)
  | and (left right : Node)
  | or (left right : Node)
  | not (inner : Node)
  deriving DecidableEq

/-- `PatchPath`. -/
structure PatchPath where
  path : AttrPath
  predicate : Option Node := none
  subAttribute : Option String := none
  deriving DecidableEq

/-! ## The tokenizer -/

/-- The kinds of tokens. -/
inductive TokenKind where
  | lparen | rparen | lbracket | rbracket | string | number | word | dot
  deriving DecidableEq, Repr

/-- A kind by its name in the pattern. -/
def TokenKind.name : TokenKind → String
  | .lparen => "lparen"
  | .rparen => "rparen"
  | .lbracket => "lbracket"
  | .rbracket => "rbracket"
  | .string => "string"
  | .number => "number"
  | .word => "word"
  | .dot => "dot"

/-- `_Token`. -/
structure Token where
  kind : TokenKind
  text : String
  position : Nat
  deriving DecidableEq, Repr

/-- A string literal after its opening quote, up to the closing one. -/
def stringBody : List Char → Option (List Char)
  | [] => none
  | c :: cs =>
    if c = '"' then some [c]
    else if c = '\\' then
      match cs with
      | [] => none
      -- the dot of the pattern is any character but a line feed
      | c' :: cs' => if c' = '\n' then none else (stringBody cs').map fun body => c :: c' :: body
    else (stringBody cs).map fun body => c :: body

/-- A character inside a word. -/
def isWordChar (c : Char) : Bool :=
  c.isAlphanum || c = '_' || c = ':' || c = '.' || c = '$' || c = '-'

section Tokenizer

variable (py : Builtins)

/-- `(?:\.\d+)?`. -/
def fraction : List Char → List Char
  | '.' :: cs => if (cs.takeWhile py.isDigit).isEmpty then [] else '.' :: cs.takeWhile py.isDigit
  | _ => []

/-- `[-+]?\d+`, or nothing. -/
def signedDigits : List Char → List Char
  | c :: cs =>
    if c = '-' ∨ c = '+' then
      if (cs.takeWhile py.isDigit).isEmpty then [] else c :: cs.takeWhile py.isDigit
    else (c :: cs).takeWhile py.isDigit
  | [] => []

/-- `(?:[eE][-+]?\d+)?`. -/
def exponent : List Char → List Char
  | c :: cs =>
    if (c = 'e' ∨ c = 'E') ∧ ¬ (signedDigits py cs).isEmpty then c :: signedDigits py cs else []
  | [] => []

/-- `\d+(?:\.\d+)?(?:[eE][-+]?\d+)?`, or nothing. -/
def unsigned (cs : List Char) : List Char :=
  let whole := cs.takeWhile py.isDigit
  if whole.isEmpty then []
  else
    let decimals := fraction py (cs.drop whole.length)
    whole ++ decimals ++ exponent py (cs.drop (whole.length + decimals.length))

/-- A number token, or nothing. -/
def number : List Char → List Char
  | '-' :: cs => if (unsigned py cs).isEmpty then [] else '-' :: unsigned py cs
  | cs => unsigned py cs

/-- `_TOKEN.match`: what a text starts with, a kind or white space, and its characters.  The
alternatives are tried in the order of the pattern. -/
def matchToken : List Char → Option (Option TokenKind × List Char)
  | [] => none
  | c :: cs =>
    if Text.isSpace c then some (none, (c :: cs).takeWhile Text.isSpace)
    else if c = '(' then some (some .lparen, [c])
    else if c = ')' then some (some .rparen, [c])
    else if c = '[' then some (some .lbracket, [c])
    else if c = ']' then some (some .rbracket, [c])
    else if c = '"' then (stringBody cs).map fun body => (some .string, c :: body)
    else if ¬ (number py (c :: cs)).isEmpty then some (some .number, number py (c :: cs))
    else if c.isAlpha then some (some .word, (c :: cs).takeWhile isWordChar)
    else if c = '.' then some (some .dot, [c])
    else none

/-- The loop of `_tokenize`, with as many characters of the last token still to pass over. -/
def tokenizeFrom : (skip position : Nat) → List Char → Except ScimFilterError (List Token)
  | _, _, [] => .ok []
  | skip + 1, position, _ :: cs => tokenizeFrom skip (position + 1) cs
  | 0, position, c :: cs =>
    match matchToken py (c :: cs) with
    | none => .error ⟨"unexpected character " ++ Text.pyRepr (String.singleton c) ++ " at " ++
        toString position⟩
    | some (kind, text) => do
      let tokens ← tokenizeFrom (text.length - 1) (position + 1) cs
      return (kind.map fun kind => ⟨kind, String.ofList text, position⟩).toList ++ tokens

/-- `_tokenize`. -/
def tokenize (source : String) : Except ScimFilterError (List Token) :=
  if maxFilterLength < source.length then
    .error ⟨"filter exceeds " ++ toString maxFilterLength ++ " characters"⟩
  else tokenizeFrom py 0 0 source.toList

end Tokenizer

/-! ## Values and names -/

/-- `text.replace(pair, c)` for a pair of characters. -/
def replacePair (a b c : Char) : List Char → List Char
  | x :: y :: rest =>
    if x = a ∧ y = b then c :: replacePair a b c rest else x :: replacePair a b c (y :: rest)
  | rest => rest

/-- `_unquote`. -/
def unquote (token : String) : String :=
  let body := (token.toList.drop 1).dropLast
  String.ofList <| replacePair '\\' '/' '/' <| replacePair '\\' 't' '\t' <|
    replacePair '\\' 'r' '\r' <| replacePair '\\' 'n' '\n' <| replacePair '\\' '\\' '\\' <|
    replacePair '\\' '"' '"' body

/-- `name.partition(".")`, without the separator. -/
def partitionDot (name : String) : String × String :=
  (Text.beforeFirst '.' name, String.ofList ((name.toList.dropWhile (· ≠ '.')).drop 1))

/-- The attribute of a name, and its sub-attribute. -/
def splitName (text : String) (urn : Option String) (name : String) (position : Nat) :
    Except ScimFilterError AttrPath :=
  let (attributeName, subAttribute) := partitionDot name
  if attributeName = "" then .error ⟨"empty attribute name at " ++ toString position⟩
  else if '.' ∈ subAttribute.toList then
    .error ⟨Text.pyRepr text ++ " nests deeper than attribute.sub at " ++ toString position⟩
  else .ok ⟨attributeName, if subAttribute = "" then none else some subAttribute, urn⟩

/-- `parse_attr_path`: the URN is everything up to the last colon. -/
def parseAttrPath (text : String) (position : Nat) : Except ScimFilterError AttrPath :=
  match Text.rpartition ':' text with
  | none => splitName text none text position
  | some (urn, name) =>
    if name = "" then
      .error ⟨"attribute name missing after schema URI at " ++ toString position⟩
    else splitName text (some urn) name position

/-! ## The parser -/

section Parser

variable (py : Builtins) (source : String)

/-- `_next`. -/
def nextToken : List Token → Except ScimFilterError (Token × List Token)
  | [] => .error ⟨"unexpected end of filter: " ++ Text.pyRepr source⟩
  | token :: tokens => .ok (token, tokens)

/-- `_accept_word`: the tokens after the word. -/
def acceptWord (word : String) : List Token → Option (List Token)
  | [] => none
  | token :: tokens => if token.kind = .word ∧ py.lower token.text = word then some tokens else none

/-- `_expect`. -/
def expectKind (kind : TokenKind) (tokens : List Token) :
    Except ScimFilterError (Token × List Token) := do
  let (token, tokens) ← nextToken source tokens
  if token.kind = kind then return (token, tokens)
  else throw ⟨"expected " ++ kind.name ++ " at " ++ toString token.position ++ ", found " ++
    Text.pyRepr token.text⟩

/-- `_parse_attr_path`. -/
def attrPathToken (tokens : List Token) : Except ScimFilterError (AttrPath × List Token) := do
  let (token, tokens) ← nextToken source tokens
  if token.kind = .word then return (← parseAttrPath token.text token.position, tokens)
  else throw ⟨"expected an attribute name at " ++ toString token.position ++ ", found " ++
    Text.pyRepr token.text⟩

/-- `_LITERALS`. -/
def literalWord (word : String) : Option Literal :=
  if word = "true" then some (.bool true)
  else if word = "false" then some (.bool false)
  else if word = "null" then some .null
  else none

/-- `_is_decimal`. -/
def isDecimal (text : String) : Bool := '.' ∈ text.toList || 'e' ∈ (py.lower text).toList

/-- The value of a token, if it has one. -/
def tokenValue (token : Token) : Option Literal :=
  match token.kind with
  | .string => some (.str (unquote token.text))
  | .number => some (.num (if isDecimal py token.text then py.toFloat token.text
      else .int (py.toInt token.text)))
  | .word => literalWord (py.lower token.text)
  | _ => none

/-- `_parse_value`. -/
def parseValue (tokens : List Token) : Except ScimFilterError (Literal × List Token) := do
  let (token, tokens) ← nextToken source tokens
  match tokenValue py token with
  | some value => return (value, tokens)
  | none => throw ⟨"expected a value at " ++ toString token.position ++ ", found " ++
      Text.pyRepr token.text⟩

/-- A parser of filters. -/
abbrev FilterParser := List Token → Except ScimFilterError (Node × List Token)

/-- What follows the path of a comparison: an operator, and a value unless it is `pr`. -/
def parseComparison (path : AttrPath) : FilterParser := fun tokens => do
  let (token, tokens) ← nextToken source tokens
  if token.kind ≠ .word then
    throw ⟨"expected an operator at " ++ toString token.position ++ ", found " ++
      Text.pyRepr token.text⟩
  else if py.lower token.text = "pr" then return (.present path, tokens)
  else
    match Operator.ofWord (py.lower token.text) with
    | none => throw ⟨Text.pyRepr token.text ++ " is not a SCIM operator (at " ++
        toString token.position ++ ")"⟩
    | some operator =>
      let (value, tokens) ← parseValue py source tokens
      return (.comparison path operator value, tokens)

/-- `_parse_attribute_expression`. -/
def attributeExpression (nested : FilterParser) : FilterParser := fun tokens => do
  let (path, tokens) ← attrPathToken source tokens
  match tokens with
  | [] => parseComparison py source path []
  | token :: rest =>
    if token.kind = .lbracket then
      let (predicate, rest) ← nested rest
      let (_, rest) ← expectKind source .rbracket rest
      return (.valuePath path predicate, rest)
    else parseComparison py source path (token :: rest)

/-- A filter between parentheses, the opening one already read. -/
def parenthesised (nested : FilterParser) : FilterParser := fun tokens => do
  let (inner, tokens) ← nested tokens
  let (_, tokens) ← expectKind source .rparen tokens
  return (inner, tokens)

/-- `_parse_unary`. -/
def parseUnary (nested : FilterParser) : FilterParser := fun tokens =>
  match acceptWord py "not" tokens with
  | some tokens => do
    let (_, tokens) ← expectKind source .lparen tokens
    let (inner, tokens) ← parenthesised source nested tokens
    return (.not inner, tokens)
  | none =>
    match tokens with
    | [] => attributeExpression py source nested []
    | token :: rest =>
      if token.kind = .lparen then parenthesised source nested rest
      else attributeExpression py source nested (token :: rest)

/-- The loop over a word that joins filters, for at most as many rounds. -/
def chain (item : FilterParser) (word : String) (join : Node → Node → Node) :
    (rounds : Nat) → Node → FilterParser
  | 0, node, tokens => .ok (node, tokens)
  | rounds + 1, node, tokens =>
    match acceptWord py word tokens with
    | none => .ok (node, tokens)
    | some tokens => do
      let (right, tokens) ← item tokens
      chain item word join rounds (join node right) tokens

/-- One item, and those joined to it. -/
def joined (item : FilterParser) (word : String) (join : Node → Node → Node) : FilterParser :=
  fun tokens => do
    let (node, tokens) ← item tokens
    chain py item word join tokens.length node tokens

/-- `_Parser.parse_filter`, with how much deeper a filter may nest. -/
def parseNested : (levels : Nat) → FilterParser
  | 0, _ => .error ⟨"filter nests deeper than " ++ toString maxDepth⟩
  | levels + 1, tokens =>
    joined py (joined py (parseUnary py source (parseNested levels)) "and" .and) "or" .or tokens

/-- Nothing is left. -/
def endOfFilter : List Token → Except ScimFilterError Unit
  | [] => .ok ()
  | token :: _ => .error ⟨"unexpected " ++ Text.pyRepr token.text ++ " at " ++
      toString token.position⟩

end Parser

variable (py : Builtins)

/-- `parse_filter`. -/
def parseFilter (source : String) : Except ScimFilterError Node := do
  let tokens ← tokenize py source
  let (node, rest) ← parseNested py source (maxDepth + 1) tokens
  endOfFilter rest
  return node

/-- What follows the filter of a path: nothing, or a sub-attribute. -/
def trailingName (source : String) : List Token → Except ScimFilterError (Option String)
  | [] => .ok none
  | token :: tokens => do
    if token.kind ≠ .dot then
      throw ⟨"expected a sub-attribute after the filter at " ++ toString token.position⟩
    else
      let (name, rest) ← expectKind source .word tokens
      if '.' ∈ name.text.toList ∨ ':' ∈ name.text.toList then
        throw ⟨"invalid sub-attribute at " ++ toString name.position⟩
      else
        endOfFilter rest
        return some name.text

/-- What follows the name of a path: nothing, or a filter. -/
def afterName (source : String) (path : AttrPath) :
    List Token → Except ScimFilterError PatchPath
  | [] => .ok ⟨path, none, path.subAttribute⟩
  | token :: tokens =>
    if token.kind = .lbracket then
      if path.subAttribute.isSome then .error ⟨Text.pyRepr source ++ " filters a sub-attribute"⟩
      else do
        let (predicate, rest) ← parseNested py source maxDepth tokens
        let (_, rest) ← expectKind source .rbracket rest
        let subAttribute ← trailingName source rest
        return ⟨⟨path.attributeName, none, path.urn⟩, some predicate, subAttribute⟩
    else do
      endOfFilter (token :: tokens)
      return ⟨path, none, path.subAttribute⟩

/-- `parse_patch_path`. -/
def parsePatchPath (source : String) : Except ScimFilterError PatchPath := do
  let tokens ← tokenize py source
  if tokens.isEmpty then throw ⟨"a PATCH path cannot be empty"⟩
  else
    let (path, rest) ← attrPathToken source tokens
    afterName py source path rest

end Scim
end CampusID
