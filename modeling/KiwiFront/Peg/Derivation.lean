import KiwiFront.Peg.Expression

/-!
# Derivations

A grammar of parsing expressions also describes a context-free language: a choice
stands for either of its expressions whatever their order, a lookahead for no
tokens at all, and a forced match for what it forces. `Expression.Describes` reads an
expression in that way, and `Grammar.Derives` says what the rules describe. No rule
is evaluated, and neither the cursor nor remembered outcomes play a part.
-/

namespace KiwiFront.Peg

/-- A sequence of parts, each of them with a property. -/
inductive Repeats (part : List Token -> Prop) : List Token -> Prop where
  | none : Repeats part []
  | more {first rest} (head : part first) (tail : Repeats part rest) :
      Repeats part (first ++ rest)

theorem Repeats.mono {part wider : List Token -> Prop}
    (included : ∀ tokens, part tokens -> wider tokens) {tokens : List Token}
    (repeats : Repeats part tokens) : Repeats wider tokens := by
  induction repeats with
  | none => exact .none
  | more head _ inductionHypothesis => exact .more (included _ head) inductionHypothesis

/-- Parts behind which stands one more. -/
theorem Repeats.concat {part : List Token -> Prop} {tokens last : List Token}
    (repeats : Repeats part tokens) (one : part last) : Repeats part (tokens ++ last) := by
  induction repeats with
  | none =>
      rw [List.nil_append, ← List.append_nil last]
      exact .more one .none
  | more head _ inductionHypothesis =>
      rw [List.append_assoc]
      exact .more head inductionHypothesis

/-- If every part has its own height, some height does for all of them. -/
theorem Repeats.exists_height {part : Nat -> List Token -> Prop}
    (monotone : ∀ low high tokens, low ≤ high -> part low tokens -> part high tokens)
    {tokens : List Token} (repeats : Repeats (fun tokens => ∃ height, part height tokens) tokens) :
    ∃ height, Repeats (part height) tokens := by
  induction repeats with
  | none => exact ⟨0, .none⟩
  | more head _ inductionHypothesis =>
      obtain ⟨low, lowPart⟩ := head
      obtain ⟨high, highParts⟩ := inductionHypothesis
      exact ⟨max low high, .more (monotone _ _ _ (Nat.le_max_left low high) lowPart)
        (highParts.mono fun _ => monotone _ _ _ (Nat.le_max_right low high))⟩

/-- The token sequences that an expression describes, given those that the rules
describe. A jump describes none. -/
def Expression.Describes {Rule : Type} {Value : Rule -> Type} (keywords : List String)
    (ofRule : Rule -> List Token -> Prop) {Result : Type} :
    Expression Rule Value Result -> List Token -> Prop
  | .token matcher, tokens => ∃ token, matcher.accepts keywords token = true ∧ tokens = [token]
  | .succeed _, tokens => tokens = []
  | .fail, _ => False
  | .skip _, _ => False
  | .both first second, tokens =>
      ∃ left right, tokens = left ++ right ∧ Describes keywords ofRule first left ∧
        Describes keywords ofRule second right
  | .choice first second, tokens =>
      Describes keywords ofRule first tokens ∨ Describes keywords ofRule second tokens
  | .many item, tokens => Repeats (Describes keywords ofRule item) tokens
  | .look _ _, tokens => tokens = []
  | .force inner _, tokens => Describes keywords ofRule inner tokens
  | .map _ inner, tokens => Describes keywords ofRule inner tokens
  | .build _ _ inner, tokens => Describes keywords ofRule inner tokens
  | .call rule, tokens => ofRule rule tokens

/-- An expression describes more when the rules describe more. -/
theorem Expression.Describes.mono {Rule : Type} {Value : Rule -> Type} {keywords : List String}
    {ofRule wider : Rule -> List Token -> Prop}
    (included : ∀ rule tokens, ofRule rule tokens -> wider rule tokens)
    {Result : Type} (expression : Expression Rule Value Result) {tokens : List Token}
    (described : expression.Describes keywords ofRule tokens) :
    expression.Describes keywords wider tokens := by
  induction expression generalizing tokens with
  | token | succeed | fail | skip | look => exact described
  | both first second firstHypothesis secondHypothesis =>
      obtain ⟨left, right, split, before, after⟩ := described
      exact ⟨left, right, split, firstHypothesis before, secondHypothesis after⟩
  | choice first second firstHypothesis secondHypothesis =>
      exact described.imp firstHypothesis secondHypothesis
  | many item inductionHypothesis =>
      exact Repeats.mono (fun _ => inductionHypothesis) described
  | force _ _ inductionHypothesis | map _ _ inductionHypothesis
  | build _ _ _ inductionHypothesis => exact inductionHypothesis described
  | call rule => exact included rule tokens described

namespace Grammar

variable {grammar : Grammar} {keywords : List String}

/-- The token sequences that a rule describes by derivations of a height at most. -/
def DerivesWithin (grammar : Grammar) (keywords : List String) :
    (height : Nat) -> (rule : grammar.Rule) -> List Token -> Prop
  | 0, _, _ => False
  | height + 1, rule, tokens =>
      (grammar.body rule).Describes keywords (grammar.DerivesWithin keywords height) tokens

/-- The token sequences that a rule describes. -/
def Derives (grammar : Grammar) (keywords : List String) (rule : grammar.Rule)
    (tokens : List Token) : Prop :=
  ∃ height, grammar.DerivesWithin keywords height rule tokens

theorem DerivesWithin.mono {height higher : Nat} (enough : height ≤ higher) {rule : grammar.Rule}
    {tokens : List Token} (derived : grammar.DerivesWithin keywords height rule tokens) :
    grammar.DerivesWithin keywords higher rule tokens := by
  induction height generalizing higher rule tokens with
  | zero => exact derived.elim
  | succ height inductionHypothesis =>
      cases higher with
      | zero => omega
      | succ higher =>
          exact Expression.Describes.mono
            (fun _ _ lower => inductionHypothesis (Nat.le_of_succ_le_succ enough) lower) _ derived

end Grammar

/-- What an expression describes by derivations of any heights it describes by
derivations of one height. -/
theorem Expression.Describes.exists_height {grammar : Grammar} {keywords : List String}
    {Result : Type}
    (expression : Expression grammar.Rule grammar.Value Result) {tokens : List Token}
    (described : expression.Describes keywords (grammar.Derives keywords) tokens) :
    ∃ height, expression.Describes keywords (grammar.DerivesWithin keywords height) tokens := by
  have monotone : ∀ {Result : Type} (expression : Expression grammar.Rule grammar.Value Result)
      low high tokens, low ≤ high ->
      expression.Describes keywords (grammar.DerivesWithin keywords low) tokens ->
      expression.Describes keywords (grammar.DerivesWithin keywords high) tokens :=
    fun expression _ _ _ enough =>
      Expression.Describes.mono (fun _ _ => Grammar.DerivesWithin.mono enough) expression
  induction expression generalizing tokens with
  | token | succeed | fail | skip | look => exact ⟨0, described⟩
  | both first second firstHypothesis secondHypothesis =>
      obtain ⟨left, right, split, before, after⟩ := described
      obtain ⟨low, lowDescribed⟩ := firstHypothesis before
      obtain ⟨high, highDescribed⟩ := secondHypothesis after
      exact ⟨max low high, left, right, split,
        monotone first _ _ _ (Nat.le_max_left low high) lowDescribed,
        monotone second _ _ _ (Nat.le_max_right low high) highDescribed⟩
  | choice first second firstHypothesis secondHypothesis =>
      cases described with
      | inl described =>
          obtain ⟨height, described⟩ := firstHypothesis described
          exact ⟨height, .inl described⟩
      | inr described =>
          obtain ⟨height, described⟩ := secondHypothesis described
          exact ⟨height, .inr described⟩
  | many item inductionHypothesis =>
      have parts : Repeats (item.Describes keywords (grammar.Derives keywords)) tokens := described
      exact Repeats.exists_height (monotone item) (parts.mono fun _ => inductionHypothesis)
  | force _ _ inductionHypothesis | map _ _ inductionHypothesis
  | build _ _ _ inductionHypothesis => exact inductionHypothesis described
  | call rule => exact described

namespace Grammar

variable {grammar : Grammar} {keywords : List String}

/-- A rule describes what its expression describes. -/
theorem derives_iff {rule : grammar.Rule} {tokens : List Token} :
    grammar.Derives keywords rule tokens ↔
      (grammar.body rule).Describes keywords (grammar.Derives keywords) tokens := by
  constructor
  · rintro ⟨height, derived⟩
    cases height with
    | zero => exact derived.elim
    | succ height =>
        exact Expression.Describes.mono (fun _ _ lower => ⟨height, lower⟩) _ derived
  · intro described
    obtain ⟨height, described⟩ := Expression.Describes.exists_height _ described
    exact ⟨height + 1, described⟩

end Grammar

end KiwiFront.Peg
