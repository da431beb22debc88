import TypedTemplate.Group
import TypedTemplate.Program.Basic

/-!
# Expressions from tags

* `Expr.ofToken`: the literal or path of one token.
* `Expr.ofGroup`: an expression; parentheses hold a call.
* `Expr.arguments`: the arguments of a call, positional ones first.
* `readExpression`: the expression of a tag.
* `readHeader`: the kind and the arguments of a block.
-/

namespace TypedTemplate

/-- The named arguments of a call, in order. -/
abbrev HashArgs := List (String × Expr)

/-- The text of a string with its backslashes removed, each keeping the next character. -/
def unescapeString : List Char → List Char
  | '\\' :: c :: rest => c :: unescapeString rest
  | ['\\'] => []
  | c :: rest => c :: unescapeString rest
  | [] => []

/-- The literal that a word stands for. -/
def wordLiteral? (word : String) : Option Value :=
  if word = "true" then some (.bool true)
  else if word = "false" then some (.bool false)
  else if word = "null" then some .null
  else if word = "undefined" then some .undefined
  else none

/-- A fault at the start of a token. -/
def Token.fault (t : Token) (cause : SyntaxError.Cause) : SyntaxError :=
  SyntaxError.at' t.excerpt.start cause

namespace Expr

/-- The literal or path of one token. -/
def ofToken (t : Token) : Except SyntaxError Expr :=
  match t.kind with
  | .string => .ok (.literal t.span (.string (String.ofList (unescapeString t.excerpt.chars))))
  | .number =>
    match Number.ofText? t.excerpt.chars with
    | some n => .ok (.literal t.span (.number n))
    | none => .error (t.fault .invalidNumber)
  | .word =>
    match wordLiteral? t.text with
    | some v => .ok (.literal t.span v)
    | none => (Path.read t.excerpt).map .path
  | .symbol => .error (t.fault .unexpectedToken)

mutual

/-- The expression of a group. Parentheses hold a name and the arguments of a call. -/
def ofGroup : Group → Except SyntaxError Expr
  | .broken e => .error e
  | .token t => ofToken t
  | .nested opening groups closing =>
    match groups with
    | [] => .error (SyntaxError.at' closing.position .missingNameAfterOpen)
    | .broken e :: _ => .error e
    | .nested o _ _ :: _ => .error (o.fault .missingNameAfterOpen)
    | .token name :: rest =>
      if name.kind ≠ .word then .error (name.fault .missingNameAfterOpen)
      else
        match arguments closing.position false rest with
        | .error e => .error e
        | .ok (params, hash) =>
          if closing.closed then .ok (.call opening.span name.text params hash)
          else .error (SyntaxError.at' closing.position .unterminatedCall)
termination_by structural g => g

/-- The arguments of a call up to where they stop. A word in front of an equals sign names the
argument behind it, and behind a named argument there is no positional one. -/
def arguments (stop : Position) (named : Bool) :
    List Group → Except SyntaxError (List Expr × HashArgs)
  | [] => .ok ([], [])
  | .broken e :: _ => .error e
  | .nested opening groups closing :: rest =>
    if named then .error (opening.fault .positionalAfterNamed)
    else
      match ofGroup (.nested opening groups closing) with
      | .error e => .error e
      | .ok value => (arguments stop named rest).map fun r => (value :: r.1, r.2)
  | .token t :: rest =>
    match t.kind, rest with
    | .word, .broken e :: _ => .error e
    | .word, .token sign :: rest' =>
      if sign.isSymbol '=' then
        match rest' with
        | [] => .error (SyntaxError.at' stop .unexpectedToken)
        | g :: rest'' =>
          match ofGroup g with
          | .error e => .error e
          | .ok value => (arguments stop true rest'').map fun r => (r.1, (t.text, value) :: r.2)
      else if named then .error (t.fault .positionalAfterNamed)
      else
        match ofToken t with
        | .error e => .error e
        | .ok value =>
          (arguments stop named (.token sign :: rest')).map fun r => (value :: r.1, r.2)
    | _, rest =>
      if named then .error (t.fault .positionalAfterNamed)
      else
        match ofToken t with
        | .error e => .error e
        | .ok value => (arguments stop named rest).map fun r => (value :: r.1, r.2)
termination_by structural groups => groups

end

end Expr

/-- The head of a tag is a word in front of an equals sign. -/
def startsWithName? : List Group → Option SyntaxError
  | .token t :: .broken e :: _ => if t.kind = .word then some e else none
  | .token t :: .token sign :: _ =>
    if t.kind = .word && sign.isSymbol '=' then some (t.fault .namedBeforeExpression) else none
  | _ => none

/-- The head may name a helper. -/
def mayCall : Expr → Bool
  | .path p => p.simpleName?.isSome
  | _ => false

/-- The expression statement of a tag with the given span and inside. -/
def readExpression (span : Span) (inner : Excerpt) : Except SyntaxError Statement :=
  let tokens := readTokens inner
  match tokens.groups with
  | [] => .error (SyntaxError.on span .emptyTag)
  | g :: rest =>
    match startsWithName? (g :: rest) with
    | some e => .error e
    | none =>
      match Expr.ofGroup g with
      | .error e => .error e
      | .ok head =>
        match Expr.arguments tokens.stop false rest with
        | .error e => .error e
        | .ok (params, hash) =>
          if (!params.isEmpty || !hash.isEmpty) && !mayCall head then
            .error (SyntaxError.on head.span .notAHelperName)
          else .ok (.expression span head params hash)

/-- The tag that opens a block or goes on with one. -/
structure Header where
  span : Span
  kind : BlockKind
  params : List Expr
  hash : HashArgs

/-- The block with a header. -/
def Header.block (h : Header) (program : Program) (inverse : Option Program) : Statement :=
  .block h.span h.kind h.params h.hash program inverse

/-- The header of a block with the given span, whose text stands behind the hash sign. -/
def readHeader (span : Span) (text : Excerpt) : Except SyntaxError Header :=
  let tokens := readTokens text
  match tokens.groups with
  | [] => .error (SyntaxError.at' tokens.stop .missingNameAfterHash)
  | .broken e :: _ => .error e
  | .nested opening _ _ :: _ => .error (opening.fault .missingNameAfterHash)
  | .token name :: rest =>
    if name.kind ≠ .word then .error (name.fault .missingNameAfterHash)
    else
      match Expr.arguments tokens.stop false rest with
      | .error e => .error e
      | .ok (params, hash) =>
        let kind := BlockKind.ofName name.text
        if !kind.isCustom && (params.length ≠ 1 || !hash.isEmpty) then
          .error (name.fault (.notOneArgument name.text))
        else .ok ⟨span, kind, params, hash⟩

end TypedTemplate
