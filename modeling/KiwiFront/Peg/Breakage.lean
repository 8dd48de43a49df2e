import KiwiFront.Peg.Spelling
import KiwiFront.Peg.State

/-!
# Breakages

A grammar of parsing expressions also tells where a parse may break off: after which of its
tokens an expression may find that a forced match is missing or that a node cannot be built.
`Expression.Breaks` reads an expression as `Expression.Spells` does. A choice breaks off where
either of its expressions does, a sequence within one of its parts, and the parts before that
one are spelled. `Grammar.Breaks` is the least reading of the rules that their expressions
agree with.
-/

namespace KiwiFront.Peg

/-- Why a parse breaks off. -/
inductive Fault where
  /-- A forced match does not come. -/
  | missing (expected : String)
  /-- A node cannot be built from what was read. -/
  | unbuildable (cause : NodeError)

/-- The error that a fault ends the parse with, found with the cursor at a mark. -/
def Fault.errorAt (setup : Setup) (mark : Nat) : Fault -> ParseError
  | .missing expected => .forced expected (setup.buffer.clamped mark).start mark
  | .unbuildable cause => .node cause

namespace Expression

variable {Rule : Type} {Value : Rule -> Type} {Result : Type} {keywords : List String}
  {spells : (rule : Rule) -> Value rule -> List Token -> Prop}

/-- The faults of an expression and the tokens behind which they come up, given what the
rules spell and where they break off themselves. -/
def Breaks (keywords : List String) (spells : (rule : Rule) -> Value rule -> List Token -> Prop)
    (ofRule : Rule -> Fault -> List Token -> Prop) {Result : Type} :
    Expression Rule Value Result -> Fault -> List Token -> Prop
  | .token _, _, _ => False
  | .succeed _, _, _ => False
  | .fail, _, _ => False
  | .skip _, _, _ => False
  | .both first second, fault, tokens =>
      Breaks keywords spells ofRule first fault tokens ∨
        ∃ value left right, tokens = left ++ right ∧ first.Spells keywords spells value left ∧
          Breaks keywords spells ofRule second fault right
  | .choice first second, fault, tokens =>
      Breaks keywords spells ofRule first fault tokens ∨
        Breaks keywords spells ofRule second fault tokens
  | .many item, fault, tokens =>
      ∃ values left right, tokens = left ++ right ∧
        SpellsEach (item.Spells keywords spells) values left ∧
          Breaks keywords spells ofRule item fault right
  | .look _ ahead, fault, tokens => Breaks keywords spells ofRule ahead fault tokens
  | .force inner expected, fault, tokens =>
      Breaks keywords spells ofRule inner fault tokens ∨ (fault = .missing expected ∧ tokens = [])
  | .map _ inner, fault, tokens => Breaks keywords spells ofRule inner fault tokens
  | .build _ make inner, fault, tokens =>
      Breaks keywords spells ofRule inner fault tokens ∨
        ∃ source cause, make source = .error cause ∧ fault = .unbuildable cause ∧
          inner.Spells keywords spells source tokens
  | .call rule, fault, tokens => ofRule rule fault tokens

/-- An expression breaks off where it did before when its rules break off elsewhere, too. -/
theorem Breaks.mono {ofRule wider : Rule -> Fault -> List Token -> Prop}
    (included : ∀ rule fault tokens, ofRule rule fault tokens -> wider rule fault tokens)
    (expression : Expression Rule Value Result) {fault : Fault} {tokens : List Token}
    (broken : expression.Breaks keywords spells ofRule fault tokens) :
    expression.Breaks keywords spells wider fault tokens := by
  induction expression generalizing tokens with
  | token | succeed | fail | skip => exact broken
  | both _ _ firstHypothesis secondHypothesis =>
      rcases broken with here | ⟨value, left, right, split, before, later⟩
      · exact .inl (firstHypothesis here)
      · exact .inr ⟨value, left, right, split, before, secondHypothesis later⟩
  | choice _ _ firstHypothesis secondHypothesis =>
      exact broken.imp firstHypothesis secondHypothesis
  | many _ inductionHypothesis =>
      obtain ⟨values, left, right, split, before, later⟩ := broken
      exact ⟨values, left, right, split, before, inductionHypothesis later⟩
  | look _ _ inductionHypothesis | map _ _ inductionHypothesis => exact inductionHypothesis broken
  | force _ _ inductionHypothesis | build _ _ _ inductionHypothesis =>
      exact broken.imp_left inductionHypothesis
  | call rule => exact included rule fault tokens broken

end Expression

namespace Grammar

variable {grammar : Grammar} {keywords : List String}

/-- A rule breaks off with a fault behind the tokens that every reading allows which holds
wherever the expressions break off by it. -/
def Breaks (grammar : Grammar) (keywords : List String) (rule : grammar.Rule) (fault : Fault)
    (tokens : List Token) : Prop :=
  ∀ reading : grammar.Rule -> Fault -> List Token -> Prop,
    (∀ rule fault tokens,
      (grammar.body rule).Breaks keywords (grammar.Spells keywords) reading fault tokens ->
        reading rule fault tokens) ->
    reading rule fault tokens

/-- A rule breaks off where its expression does. -/
theorem breaks_of_body {rule : grammar.Rule} {fault : Fault} {tokens : List Token}
    (broken : (grammar.body rule).Breaks keywords (grammar.Spells keywords)
      (grammar.Breaks keywords) fault tokens) :
    grammar.Breaks keywords rule fault tokens := by
  intro reading agrees
  apply agrees
  exact Expression.Breaks.mono (fun _ _ _ inner => inner reading agrees) _ broken

end Grammar

end KiwiFront.Peg
