import KiwiFront.Peg.Expression

/-!
# Extending a grammar

A grammar can be extended by rules that are given by name. The new rules may call
each other and the old ones; the old ones stay as they are. All new rules have
values of one type, which is not that of any old rule. A new rule may bear the name
of an old one.
-/

namespace KiwiFront.Peg

/-- A rule of a grammar, or one that was added to it. -/
inductive ExtendedRule (Rule : Type) where
  | base (rule : Rule)
  | added (name : String)

namespace ExtendedRule

variable {Rule Tag : Type}

/-- The tag of what a rule reads. The added rules share one that is new. -/
def tag (baseTag : Rule -> Tag) : ExtendedRule Rule -> Option Tag
  | .base rule => some (baseTag rule)
  | .added _ => none

/-- The type that has a tag. -/
def Content (BaseContent : Tag -> Type) (AddedValue : Type) : Option Tag -> Type
  | some tag => BaseContent tag
  | none => AddedValue

/-- The type of what a rule reads. -/
abbrev Value (BaseContent : Tag -> Type) (baseTag : Rule -> Tag) (AddedValue : Type)
    (rule : ExtendedRule Rule) : Type :=
  Content BaseContent AddedValue (rule.tag baseTag)

end ExtendedRule

/-- Expressions over the rules of an extended grammar. -/
abbrev Grammar.ExtendedPhrase (grammar : Grammar) (AddedValue : Type) (Result : Type) :=
  Expression (ExtendedRule grammar.Rule)
    (ExtendedRule.Value grammar.Content grammar.tag AddedValue) Result

namespace Expression

/-- A call of a rule that an extension takes over. -/
def callBase {Rule Tag : Type} {BaseContent : Tag -> Type} {baseTag : Rule -> Tag}
    (AddedValue : Type) (rule : Rule) :
    Expression (ExtendedRule Rule) (ExtendedRule.Value BaseContent baseTag AddedValue)
      (BaseContent (baseTag rule)) :=
  let call : Expression (ExtendedRule Rule) (ExtendedRule.Value BaseContent baseTag AddedValue)
      (ExtendedRule.Value BaseContent baseTag AddedValue (.base rule)) :=
    .call (ExtendedRule.base rule)
  call

/-- An expression of a grammar as one of its extension. -/
def lift {grammar : Grammar} (AddedValue : Type) {Result : Type} :
    Expression grammar.Rule grammar.Value Result -> grammar.ExtendedPhrase AddedValue Result
  | .token matcher => .token matcher
  | .succeed value => .succeed value
  | .fail => .fail
  | .skip distance => .skip distance
  | .both first second => .both (first.lift AddedValue) (second.lift AddedValue)
  | .choice first second => .choice (first.lift AddedValue) (second.lift AddedValue)
  | .many item => .many (item.lift AddedValue)
  | .look positive ahead => .look positive (ahead.lift AddedValue)
  | .force inner expected => .force (inner.lift AddedValue) expected
  | .map change inner => .map change (inner.lift AddedValue)
  | .build type make inner => .build type make (inner.lift AddedValue)
  | .call rule => callBase AddedValue rule

end Expression

/-- A grammar with further rules: their modes and their expressions. -/
def Grammar.extend (grammar : Grammar) (AddedValue : Type) (mode : String -> Mode)
    (body : String -> grammar.ExtendedPhrase AddedValue AddedValue) : Grammar where
  Rule := ExtendedRule grammar.Rule
  Tag := Option grammar.Tag
  sameTag := have := grammar.sameTag; inferInstance
  Content := ExtendedRule.Content grammar.Content AddedValue
  tag := ExtendedRule.tag grammar.tag
  name
    | .base rule => grammar.name rule
    | .added name => name
  mode
    | .base rule => grammar.mode rule
    | .added name => mode name
  body
    | .base rule => (grammar.body rule).lift AddedValue
    | .added name => body name

end KiwiFront.Peg
