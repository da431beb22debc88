import TypedTemplate.Token

/-!
# Groups of tokens

The tokens of a tag are grouped by their parentheses. A closing parenthesis that nothing opened
stays a token; a group that nothing closes ends where the tag ends.

* `Group`: a token, or what stands between parentheses.
* `gather`: the groups of a list of tokens, by a stack of the groups that are open.
-/

namespace TypedTemplate

/-- Where a group ends, and whether by a closing parenthesis. -/
structure Closing where
  position : Position
  closed : Bool
  deriving DecidableEq

/-- A part of a tag. -/
inductive Group where
  | token (t : Token)
  | nested (opening : Token) (groups : List Group) (closing : Closing)
  /-- Here the inside of the tag stops being tokens. -/
  | broken (e : SyntaxError)

/-- A group that is open: its opening parenthesis, and the groups in front of it in reverse. -/
structure OpenGroup where
  opening : Token
  before : List Group

/-- End the groups that are still open, innermost first. -/
def closeAll (stop : Position) (current : List Group) : List OpenGroup → List Group
  | [] => current.reverse
  | g :: outer =>
    closeAll stop (.nested g.opening current.reverse ⟨stop, false⟩ :: g.before) outer

/-- The groups of the remaining tokens, inside the groups that are open. -/
def gather (stop : Position) (fault : Option SyntaxError) (outer : List OpenGroup)
    (current : List Group) : List Token → List Group
  | [] =>
    match fault with
    | some e => closeAll stop (.broken e :: current) outer
    | none => closeAll stop current outer
  | t :: rest =>
    if t.isSymbol '(' then gather stop fault (⟨t, current⟩ :: outer) [] rest
    else
      match outer with
      | g :: outer' =>
        if t.isSymbol ')' then
          let closed := .nested g.opening current.reverse ⟨t.excerpt.start, true⟩
          gather stop fault outer' (closed :: g.before) rest
        else gather stop fault outer (.token t :: current) rest
      | [] => gather stop fault [] (.token t :: current) rest

/-- The groups of a tag. -/
def Tokens.groups (ts : Tokens) : List Group := gather ts.stop ts.fault [] [] ts.tokens

end TypedTemplate
