import TypedTemplate.Source.Basic
import TypedTemplate.Source.Position

/-!
# What can be wrong with the text of a template

* `SyntaxError.Cause`: the faults, one constructor each.
* `SyntaxError.Cause.text`: their wording.
* `SyntaxError.message`: the whole remark, with the line it is about.
-/

namespace TypedTemplate

/-- A fault in the text of a template. -/
inductive SyntaxError.Cause where
  | unterminatedTag
  | unterminatedComment
  | emptyTag
  | unmatchedQuote
  | unterminatedBracket
  | blockParameters
  | emptyPath
  | invalidPath (written : String)
  | invalidNumber
  | unexpectedToken
  | missingNameAfterOpen
  | missingNameAfterHash
  | unterminatedCall
  | positionalAfterNamed
  | namedBeforeExpression
  | notAHelperName
  | notOneArgument (name : String)
  | decoratorBlock
  | partialTag
  | inverseSection
  | decoratorTag
  | unclosedBlock (name : String)
  | duplicateElse
  | elseOutsideBlock
  | unexpectedClose (name : String)
  | mismatchedClose (name : String) (opened : String)
  deriving DecidableEq

/-- A fault, and the line and column it is blamed on. -/
structure SyntaxError where
  cause : SyntaxError.Cause
  line : Nat
  col : Nat
  deriving DecidableEq

namespace SyntaxError

/-- The wording of a fault. -/
def Cause.text : Cause → String
  | .unterminatedTag => "unterminated mustache tag"
  | .unterminatedComment => "unterminated comment"
  | .emptyTag => "empty mustache tag"
  | .unmatchedQuote => "unmatched quote in string"
  | .unterminatedBracket => "unterminated `[` in path"
  | .blockParameters => "block parameters are not supported"
  | .emptyPath => "empty path"
  | .invalidPath written => "invalid path `" ++ written ++ "`"
  | .invalidNumber => "invalid number literal"
  | .unexpectedToken => "unexpected token"
  | .missingNameAfterOpen => "expecting name after `(`"
  | .missingNameAfterHash => "expecting name after `#`"
  | .unterminatedCall => "unterminated sub-expression"
  | .positionalAfterNamed => "positional argument after named argument"
  | .namedBeforeExpression => "expecting expression before named arguments"
  | .notAHelperName => "expecting helper name"
  | .notOneArgument name => "`" ++ name ++ "` expects exactly one argument"
  | .decoratorBlock => "decorators and partial blocks are not supported"
  | .partialTag => "partials are not supported"
  | .inverseSection =>
    "inverse sections are not supported; use `\x7b\x7b#unless\x7d\x7d`"
  | .decoratorTag => "decorators are not supported"
  | .unclosedBlock name => "unclosed block `" ++ name ++ "`"
  | .duplicateElse => "duplicate `else` in block"
  | .elseOutsideBlock => "`else` outside of a block"
  | .unexpectedClose name => "unexpected closing tag `\x7b\x7b/" ++ name ++ "\x7d\x7d`"
  | .mismatchedClose name opened =>
    "`\x7b\x7b/" ++ name ++ "\x7d\x7d` does not match `\x7b\x7b#" ++ opened ++ "\x7d\x7d`"

/-- A fault at the line and column of a position. -/
def at' (p : Position) (cause : Cause) : SyntaxError := ⟨cause, p.line, p.col⟩

/-- A fault at the start of a span. -/
def on (s : Span) (cause : Cause) : SyntaxError := ⟨cause, s.line, s.col⟩

/-- The remark about the fault, with the line it is in. -/
def message (e : SyntaxError) (source : Source) : String :=
  source.message e.line e.col "error" e.cause.text

end SyntaxError

end TypedTemplate
