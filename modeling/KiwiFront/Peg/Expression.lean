import KiwiFront.Token
import KiwiFront.Tree.Node

/-!
# Parsing expressions

A parsing expression describes how to read a value off a token sequence. Rules
are called by name, so that they may refer to each other in any order; the type
of an expression tells the type of the value that it reads. A grammar gives every
rule its expression and tells whether its outcomes are remembered.
-/

namespace KiwiFront.Peg

/-- What a single token has to be like. -/
inductive Matcher where
  | kind (wanted : TokenKind)
  /-- Any token but the end marker with this text. -/
  | literal (text : String)
  /-- A name that is not reserved. -/
  | name
  /-- A name with this text, reserved or not. -/
  | keyword (text : String)
deriving DecidableEq

/-- Whether a token is as asked for, when `keywords` are reserved. -/
def Matcher.accepts (keywords : List String) (token : Token) : Matcher -> Bool
  | .kind wanted => token.kind == wanted
  | .literal text => token.kind != .endMarker && token.text == text
  | .name => token.kind == .name && !keywords.contains token.text
  | .keyword text => token.kind == .name && token.text == text

/-- An expression over rules whose values have the types that `Value` gives. -/
inductive Expression (Rule : Type) (Value : Rule -> Type) : Type -> Type 1 where
  /-- Consumes one token. -/
  | token (matcher : Matcher) : Expression Rule Value Token
  /-- Succeeds in place. -/
  | succeed {Result : Type} (value : Result) : Expression Rule Value Result
  /-- Fails in place. -/
  | fail {Result : Type} : Expression Rule Value Result
  /-- Moves the cursor by a distance, but not before the first token. -/
  | skip (distance : Int) : Expression Rule Value Unit
  /-- Reads one thing after the other. -/
  | both {First Second : Type} (first : Expression Rule Value First)
      (second : Expression Rule Value Second) : Expression Rule Value (First × Second)
  /-- Tries the second expression from the same place where the first one fails. -/
  | choice {Result : Type} (first second : Expression Rule Value Result) :
      Expression Rule Value Result
  /-- Reads as many things as possible, as long as each of them consumes tokens. -/
  | many {Item : Type} (item : Expression Rule Value Item) : Expression Rule Value (List Item)
  /-- Succeeds in place when the outcome of an expression is as wanted. -/
  | look {Result : Type} (positive : Bool) (ahead : Expression Rule Value Result) :
      Expression Rule Value Unit
  /-- Turns a failure into an error that ends the parse. -/
  | force {Result : Type} (inner : Expression Rule Value Result) (expected : String) :
      Expression Rule Value Result
  /-- Changes the value. -/
  | map {Source Target : Type} (change : Source -> Target)
      (inner : Expression Rule Value Source) : Expression Rule Value Target
  /-- Builds a node of the named type, which may turn out to be impossible. -/
  | build {Source Target : Type} (type : String) (make : Source -> Except NodeError Target)
      (inner : Expression Rule Value Source) : Expression Rule Value Target
  /-- Evaluates a rule. -/
  | call (rule : Rule) : Expression Rule Value (Value rule)

namespace Expression

variable {Rule : Type} {Value : Rule -> Type} {Result : Type}

/-- Tries expressions in order, each from the same place. -/
def alternatives : List (Expression Rule Value Result) -> Expression Rule Value Result
  | [] => .fail
  | first :: rest => .choice first (alternatives rest)

/-- Reads a value, or nothing in place. -/
def optional (inner : Expression Rule Value Result) : Expression Rule Value (Option Result) :=
  .choice (.map some inner) (.succeed none)

/-- Reads several values, one after the other. -/
def inOrder : List (Expression Rule Value Result) -> Expression Rule Value (List Result)
  | [] => .succeed []
  | first :: rest => .map (fun (head, tail) => head :: tail) (.both first (inOrder rest))

/-- Reads two things and keeps the second one. -/
def after {Skipped : Type} (skipped : Expression Rule Value Skipped)
    (kept : Expression Rule Value Result) : Expression Rule Value Result :=
  .map Prod.snd (.both skipped kept)

/-- Reads two things and keeps the first one. -/
def before {Skipped : Type} (kept : Expression Rule Value Result)
    (skipped : Expression Rule Value Skipped) : Expression Rule Value Result :=
  .map Prod.fst (.both kept skipped)

end Expression

/-- How the outcomes of a rule are remembered. -/
inductive Mode where
  /-- Not at all. -/
  | plain
  /-- Once per mark, if the parser remembers outcomes. -/
  | memoized
  /-- Once per mark, with the outcome grown until it reaches no further. -/
  | leftRecursive
deriving DecidableEq

/-- Rules with their names, modes and expressions. The values of rules are of types that
have tags, so that it can be told whether two rules read values of one type. -/
structure Grammar where
  Rule : Type
  /-- The tags of types of values. -/
  Tag : Type
  sameTag : DecidableEq Tag
  /-- The type that has a tag. -/
  Content : Tag -> Type
  /-- The tag of the type of what a rule reads. -/
  tag : Rule -> Tag
  name : Rule -> String
  mode : Rule -> Mode
  body : (rule : Rule) -> Expression Rule (fun rule => Content (tag rule)) (Content (tag rule))

namespace Grammar

/-- The type of what a rule reads. -/
abbrev Value (grammar : Grammar) (rule : grammar.Rule) : Type :=
  grammar.Content (grammar.tag rule)

/-- A value with the tag of its type. -/
abbrev Stored (grammar : Grammar) : Type := Σ tag : grammar.Tag, grammar.Content tag

/-- A value with its tag, if it is of the type of what a rule reads. -/
def downcast? (grammar : Grammar) (rule : grammar.Rule) :
    grammar.Stored -> Option (grammar.Value rule)
  | ⟨tag, value⟩ =>
      have := grammar.sameTag
      if same : tag = grammar.tag rule then some (show grammar.Content _ from same ▸ value)
      else none

@[simp] theorem downcast?_self (grammar : Grammar) (rule : grammar.Rule)
    (value : grammar.Value rule) :
    grammar.downcast? rule ⟨grammar.tag rule, value⟩ = some value := by
  simp [downcast?]

theorem downcast?_of_ne (grammar : Grammar) {rule : grammar.Rule} {tag : grammar.Tag}
    (value : grammar.Content tag) (different : tag ≠ grammar.tag rule) :
    grammar.downcast? rule ⟨tag, value⟩ = none := by
  simp [downcast?, different]

end Grammar

end KiwiFront.Peg
