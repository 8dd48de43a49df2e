import KiwiFront.Grammar
import KiwiFront.Peg.Derivation

/-!
# The productions of the language

The language is also given by a context-free grammar in extended notation, which knows
neither order of alternatives nor commitment nor lookahead. `Production.Yields` is its
derivation relation. What it generates are the token sequences that the parsing
expressions of the rules describe.
-/

namespace KiwiFront

open Peg

/-- A single token of a production. -/
inductive Terminal where
  /-- A name with this text. -/
  | keyword (text : String)
  /-- A token with this text. The end marker stands for no text. -/
  | operator (text : String)
  /-- A name that is not reserved. -/
  | name
  | newline
  | endMarker

/-- Which tokens a terminal stands for. -/
def Terminal.Matches (token : Token) : Terminal -> Prop
  | keyword text => token.kind = .name ∧ token.text = text
  | operator text => token.kind ≠ .endMarker ∧ token.text = text
  | name => token.kind = .name ∧ token.text ∉ KiwiGrammar.keywords
  | newline => token.kind = .newline
  | endMarker => token.kind = .endMarker

/-- The right-hand side of a rule. -/
inductive Production where
  | terminal (atom : Terminal)
  | rule (called : KiwiRule)
  | both (first second : Production)
  | either (first second : Production)
  | optional (inner : Production)
  | star (inner : Production)

namespace Production

/-- One part after the other. -/
def inOrder (first : Production) : List Production -> Production
  | [] => first
  | next :: rest => .both first (inOrder next rest)

def word (text : String) : Production := .terminal (.keyword text)

def sign (text : String) : Production := .terminal (.operator text)

/-- The production of every rule. -/
def of : KiwiRule -> Production
  | .start =>
      inOrder (.rule .packageHeader)
        [.rule .importList, .rule .topLevelObjectList, .optional (.rule .semi),
          .terminal .endMarker]
  | .packageHeader => inOrder (word "package") [.rule .identifier, .rule .semi]
  | .identifier =>
      .both (.rule .simpleIdentifier) (.star (.both (sign ".") (.rule .simpleIdentifier)))
  | .simpleIdentifier => .terminal .name
  | .importList => .star (.rule .importHeader)
  | .importHeader =>
      inOrder (word "import") [.rule .identifier, .optional (.rule .importSuffix), .rule .semi]
  | .importSuffix => .either (.rule .importAlias) (.both (sign ".") (sign "*"))
  | .importAlias => .both (word "as") (.rule .simpleIdentifier)
  | .semi => .either (.terminal .newline) (sign ";")
  | .topLevelObjectList => .star (.rule .topLevelObject)
  | .topLevelObject => .both (.rule .declaration) (.rule .semi)
  | .declaration => .rule .functionDeclaration
  | .functionDeclaration =>
      inOrder (.rule .modifiers)
        [word "fun", .rule .simpleIdentifier, sign "(", sign ")",
          .optional (.both (sign ":") (.rule .type))]
  | .modifiers => .star (.rule .modifier)
  | .modifier => .either (word "public") (.either (word "private") (word "internal"))
  | .type => .either (.rule .parenthesizedType) (.rule .userType)
  | .parenthesizedType => inOrder (sign "(") [.rule .type, sign ")"]
  | .userType =>
      .either (inOrder (.rule .userType) [sign ".", .rule .simpleUserType])
        (.rule .simpleUserType)
  | .simpleUserType => .rule .simpleIdentifier

/-- The token sequences that can be derived from a production. -/
inductive Yields : Production -> List Token -> Prop where
  | terminal {atom token} (matched : atom.Matches token) : Yields (.terminal atom) [token]
  | rule {called tokens} (derived : Yields (of called) tokens) : Yields (.rule called) tokens
  | both {first second left right} (here : Yields first left) (there : Yields second right) :
      Yields (.both first second) (left ++ right)
  | first {first second tokens} (derived : Yields first tokens) :
      Yields (.either first second) tokens
  | second {first second tokens} (derived : Yields second tokens) :
      Yields (.either first second) tokens
  | absent {inner} : Yields (.optional inner) []
  | given {inner tokens} (derived : Yields inner tokens) : Yields (.optional inner) tokens
  | none {inner} : Yields (.star inner) []
  | more {inner left right} (here : Yields inner left) (later : Yields (.star inner) right) :
      Yields (.star inner) (left ++ right)

/-- What a production describes, given what the rules describe. -/
def Describes (ofRule : KiwiRule -> List Token -> Prop) : Production -> List Token -> Prop
  | .terminal atom, tokens => ∃ token, atom.Matches token ∧ tokens = [token]
  | .rule called, tokens => ofRule called tokens
  | .both first second, tokens =>
      ∃ left right, tokens = left ++ right ∧ Describes ofRule first left ∧
        Describes ofRule second right
  | .either first second, tokens => Describes ofRule first tokens ∨ Describes ofRule second tokens
  | .optional inner, tokens => Describes ofRule inner tokens ∨ tokens = []
  | .star inner, tokens => Repeats (Describes ofRule inner) tokens

/-- What is described by rules that are derivable is derivable. -/
theorem yields_of_describes {ofRule : KiwiRule -> List Token -> Prop}
    (derivable : ∀ rule tokens, ofRule rule tokens -> Yields (.rule rule) tokens)
    (production : Production) {tokens : List Token}
    (described : production.Describes ofRule tokens) : production.Yields tokens := by
  induction production generalizing tokens with
  | terminal atom =>
      obtain ⟨token, matched, rfl⟩ := described
      exact .terminal matched
  | rule called => exact derivable called tokens described
  | both first second firstHypothesis secondHypothesis =>
      obtain ⟨left, right, rfl, here, there⟩ := described
      exact .both (firstHypothesis here) (secondHypothesis there)
  | either first second firstHypothesis secondHypothesis =>
      rcases described with here | there
      · exact .first (firstHypothesis here)
      · exact .second (secondHypothesis there)
  | optional inner inductionHypothesis =>
      rcases described with given | rfl
      · exact .given (inductionHypothesis given)
      · exact .absent
  | star inner inductionHypothesis =>
      have parts : Repeats (inner.Describes ofRule) tokens := described
      induction parts with
      | none => exact .none
      | more head tail laterHypothesis =>
          exact .more (inductionHypothesis head) (laterHypothesis tail)

end Production

namespace KiwiGrammar

theorem accepts_keyword_iff {token : Token} {text : String} :
    (Matcher.keyword text).accepts keywords token = true ↔
      (Terminal.keyword text).Matches token := by
  simp [Matcher.accepts, Terminal.Matches]

theorem accepts_literal_iff {token : Token} {text : String} :
    (Matcher.literal text).accepts keywords token = true ↔
      (Terminal.operator text).Matches token := by
  simp [Matcher.accepts, Terminal.Matches]

theorem accepts_name_iff {token : Token} :
    Matcher.name.accepts keywords token = true ↔ Terminal.name.Matches token := by
  simp [Matcher.accepts, Terminal.Matches]

theorem accepts_newline_iff {token : Token} :
    (Matcher.kind .newline).accepts keywords token = true ↔ Terminal.newline.Matches token := by
  simp [Matcher.accepts, Terminal.Matches]

theorem accepts_endMarker_iff {token : Token} :
    (Matcher.kind .endMarker).accepts keywords token = true ↔
      Terminal.endMarker.Matches token := by
  simp [Matcher.accepts, Terminal.Matches]

/-- Nothing before some tokens leaves them as they are. -/
theorem exists_behind_nil_iff {holds : List Token -> Prop} {tokens : List Token} :
    (∃ left right, tokens = left ++ right ∧ left = [] ∧ holds right) ↔ holds tokens := by
  constructor
  · rintro ⟨left, right, rfl, rfl, held⟩
    exact held
  · intro held
    exact ⟨[], tokens, rfl, rfl, held⟩

section Shape

attribute [local simp] body sub keyword literal forcedLiteral forcedSegment forcedIdentifier
  forcedSemi start packageHeader identifier importHeader importAlias importWildcard
  functionDeclaration parenthesizedType qualifiedType simpleType Expression.alternatives
  Expression.optional Expression.after Expression.before

/-- Forced matches, the order of choices and lookaheads apart, every parsing expression is
the production of its rule. -/
theorem describes_iff (ofRule : KiwiRule -> List Token -> Prop) (rule : KiwiRule)
    (tokens : List Token) :
    (body rule).Describes keywords ofRule tokens ↔
      (Production.of rule).Describes ofRule tokens := by
  cases rule <;>
    simp [Expression.Describes, Production.of, Production.inOrder, Production.word,
      Production.sign, Production.Describes, accepts_keyword_iff, accepts_literal_iff,
      accepts_name_iff, accepts_newline_iff, accepts_endMarker_iff, exists_behind_nil_iff]

end Shape

/-- A rule derives what its production describes. -/
theorem derives_iff {rule : KiwiRule} {tokens : List Token} :
    kiwiGrammar.Derives keywords rule tokens ↔
      (Production.of rule).Describes (kiwiGrammar.Derives keywords) tokens :=
  Grammar.derives_iff.trans (describes_iff _ rule tokens)

/-- What a production yields it describes, given what the rules derive. -/
theorem describes_of_yields {production : Production} {tokens : List Token}
    (derived : production.Yields tokens) :
    production.Describes (kiwiGrammar.Derives keywords) tokens := by
  induction derived with
  | terminal matched => exact ⟨_, matched, rfl⟩
  | rule _ inductionHypothesis => exact derives_iff.2 inductionHypothesis
  | both _ _ here there => exact ⟨_, _, rfl, here, there⟩
  | first _ inductionHypothesis => exact .inl inductionHypothesis
  | second _ inductionHypothesis => exact .inr inductionHypothesis
  | absent => exact .inr rfl
  | given _ inductionHypothesis => exact .inl inductionHypothesis
  | none => exact Repeats.none
  | more _ _ here later => exact Repeats.more here later

end KiwiGrammar

/-- The token sequences that a rule of the language generates. -/
def KiwiRule.Generates (rule : KiwiRule) (tokens : List Token) : Prop :=
  (Production.rule rule).Yields tokens

/-- The productions generate what the parsing expressions derive. -/
theorem KiwiRule.generates_iff {rule : KiwiRule} {tokens : List Token} :
    rule.Generates tokens ↔ kiwiGrammar.Derives KiwiGrammar.keywords rule tokens := by
  constructor
  · exact KiwiGrammar.describes_of_yields
  · rintro ⟨height, derived⟩
    induction height generalizing rule tokens with
    | zero => exact derived.elim
    | succ height inductionHypothesis =>
        have described := (KiwiGrammar.describes_iff _ rule tokens).1 derived
        exact .rule (Production.yields_of_describes (fun _ _ => inductionHypothesis) _ described)

end KiwiFront
