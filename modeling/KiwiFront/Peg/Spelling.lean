import KiwiFront.Peg.Derivation

/-!
# Spellings

A grammar of parsing expressions also tells which tokens a value can be read from. Here
`Expression.Spells` reads an expression as `Expression.Describes` does, a choice without
order, a lookahead as nothing and a forced match as what it forces, but keeps the value:
it is the one that the tokens and the parts make up, and a node is one that could be built.
`Grammar.Spells` is the least reading of the rules that their expressions agree with.
-/

namespace KiwiFront.Peg

/-- Values in a row, each spelled by tokens of its own. -/
inductive SpellsEach {Item : Type} (part : Item -> List Token -> Prop) :
    List Item -> List Token -> Prop where
  | none : SpellsEach part [] []
  | more {item items first rest} (head : part item first) (tail : SpellsEach part items rest) :
      SpellsEach part (item :: items) (first ++ rest)

namespace SpellsEach

variable {Item : Type} {part wider : Item -> List Token -> Prop} {items : List Item}
  {tokens : List Token}

/-- Items spelled by one relation are spelled by every wider one. -/
theorem mono (included : ∀ item tokens, part item tokens -> wider item tokens)
    (spelled : SpellsEach part items tokens) : SpellsEach wider items tokens := by
  induction spelled with
  | none => exact .none
  | more head _ inductionHypothesis => exact .more (included _ _ head) inductionHypothesis

/-- Whatever values stand for, their tokens repeat what each of them is spelled by. -/
theorem repeats {described : List Token -> Prop}
    (included : ∀ item tokens, part item tokens -> described tokens)
    (spelled : SpellsEach part items tokens) : Repeats described tokens := by
  induction spelled with
  | none => exact .none
  | more head _ inductionHypothesis => exact .more (included _ _ head) inductionHypothesis

/-- A single item. -/
theorem one {item : Item} (spelled : part item tokens) : SpellsEach part [item] tokens := by
  rw [← List.append_nil tokens]
  exact .more spelled .none

/-- Items behind other items, with their tokens behind theirs. -/
theorem append {later : List Item} {laterTokens : List Token} (here : SpellsEach part items tokens)
    (there : SpellsEach part later laterTokens) :
    SpellsEach part (items ++ later) (tokens ++ laterTokens) := by
  induction here with
  | none => exact there
  | more head _ inductionHypothesis =>
      rw [List.append_assoc]
      exact .more head inductionHypothesis

/-- Items made of some sources, each with the tokens of its source. -/
theorem of_map {Source : Type} {itemOf : Source -> Item} {tokensOf : Source -> List Token}
    {sources : List Source} (each : ∀ source ∈ sources, part (itemOf source) (tokensOf source)) :
    SpellsEach part (sources.map itemOf) (sources.flatMap tokensOf) := by
  induction sources with
  | nil => exact .none
  | cons source rest inductionHypothesis =>
      obtain ⟨here, behind⟩ := List.forall_mem_cons.1 each
      exact .more here (inductionHypothesis behind)

/-- The tokens of an item are among those of all items. -/
theorem of_mem (spelled : SpellsEach part items tokens) {item : Item} (member : item ∈ items) :
    ∃ piece, piece.Sublist tokens ∧ part item piece := by
  induction spelled with
  | none => cases member
  | @more _ _ first rest head _ inductionHypothesis =>
      rcases List.mem_cons.1 member with rfl | later
      · exact ⟨first, List.sublist_append_left first rest, head⟩
      · obtain ⟨piece, within, spelled⟩ := inductionHypothesis later
        exact ⟨piece, within.trans (List.sublist_append_right first rest), spelled⟩

/-- The tokens of the first item stand in front. -/
theorem first {item : Item} (spelled : SpellsEach part (item :: items) tokens) :
    ∃ piece, piece <+: tokens ∧ part item piece := by
  cases spelled with
  | @more _ _ first rest head _ => exact ⟨first, List.prefix_append first rest, head⟩

/-- The tokens of the last item stand at the end. -/
theorem last (spelled : SpellsEach part items tokens) {item : Item}
    (isLast : items.getLast? = some item) : ∃ piece, piece <:+ tokens ∧ part item piece := by
  induction spelled with
  | none => cases isLast
  | @more only later first rest head tail inductionHypothesis =>
      cases tail with
      | none =>
          obtain rfl : only = item := Option.some.inj isLast
          exact ⟨first, by simp, head⟩
      | more next others =>
          obtain ⟨piece, within, spelled⟩ := inductionHypothesis isLast
          exact ⟨piece, within.trans (List.suffix_append first _), spelled⟩

end SpellsEach

namespace Expression

variable {Rule : Type} {Value : Rule -> Type} {Result : Type} {keywords : List String}

/-- The values and the token sequences that they are read from by an expression, given those
of the rules. Nothing is read over a jump. -/
def Spells (keywords : List String)
    (ofRule : (rule : Rule) -> Value rule -> List Token -> Prop) {Result : Type} :
    Expression Rule Value Result -> Result -> List Token -> Prop
  | .token matcher, read, tokens => matcher.accepts keywords read = true ∧ tokens = [read]
  | .succeed kept, value, tokens => value = kept ∧ tokens = []
  | .fail, _, _ => False
  | .skip _, _, _ => False
  | .both first second, value, tokens =>
      ∃ left right, tokens = left ++ right ∧ Spells keywords ofRule first value.1 left ∧
        Spells keywords ofRule second value.2 right
  | .choice first second, value, tokens =>
      Spells keywords ofRule first value tokens ∨ Spells keywords ofRule second value tokens
  | .many item, values, tokens => SpellsEach (Spells keywords ofRule item) values tokens
  | .look _ _, _, tokens => tokens = []
  | .force inner _, value, tokens => Spells keywords ofRule inner value tokens
  | .map change inner, value, tokens =>
      ∃ source, change source = value ∧ Spells keywords ofRule inner source tokens
  | .build _ make inner, value, tokens =>
      ∃ source, make source = .ok value ∧ Spells keywords ofRule inner source tokens
  | .call rule, value, tokens => ofRule rule value tokens

/-- An expression spells more when the rules spell more. -/
theorem Spells.mono {ofRule wider : (rule : Rule) -> Value rule -> List Token -> Prop}
    (included : ∀ rule value tokens, ofRule rule value tokens -> wider rule value tokens)
    (expression : Expression Rule Value Result) {value : Result} {tokens : List Token}
    (spelled : expression.Spells keywords ofRule value tokens) :
    expression.Spells keywords wider value tokens := by
  induction expression generalizing tokens with
  | token | succeed | fail | skip | look => exact spelled
  | both first second firstHypothesis secondHypothesis =>
      obtain ⟨left, right, split, before, after⟩ := spelled
      exact ⟨left, right, split, firstHypothesis before, secondHypothesis after⟩
  | choice first second firstHypothesis secondHypothesis =>
      exact spelled.imp firstHypothesis secondHypothesis
  | many item inductionHypothesis =>
      exact SpellsEach.mono (fun _ _ => inductionHypothesis) spelled
  | force _ _ inductionHypothesis => exact inductionHypothesis spelled
  | map _ _ inductionHypothesis | build _ _ _ inductionHypothesis =>
      obtain ⟨source, made, inner⟩ := spelled
      exact ⟨source, made, inductionHypothesis inner⟩
  | call rule => exact included rule value tokens spelled

/-- What spells some value is described, if it is so for the rules. -/
theorem Spells.describes {ofRule : (rule : Rule) -> Value rule -> List Token -> Prop}
    {described : Rule -> List Token -> Prop}
    (included : ∀ rule value tokens, ofRule rule value tokens -> described rule tokens)
    (expression : Expression Rule Value Result) {value : Result} {tokens : List Token}
    (spelled : expression.Spells keywords ofRule value tokens) :
    expression.Describes keywords described tokens := by
  induction expression generalizing tokens with
  | token => exact ⟨value, spelled⟩
  | succeed => exact spelled.2
  | fail | skip => exact spelled.elim
  | look => exact spelled
  | both first second firstHypothesis secondHypothesis =>
      obtain ⟨left, right, split, before, after⟩ := spelled
      exact ⟨left, right, split, firstHypothesis before, secondHypothesis after⟩
  | choice first second firstHypothesis secondHypothesis =>
      exact spelled.imp firstHypothesis secondHypothesis
  | many item inductionHypothesis =>
      exact SpellsEach.repeats (fun _ _ => inductionHypothesis) spelled
  | force _ _ inductionHypothesis => exact inductionHypothesis spelled
  | map _ _ inductionHypothesis | build _ _ _ inductionHypothesis =>
      obtain ⟨source, _, inner⟩ := spelled
      exact inductionHypothesis inner
  | call rule => exact included rule value tokens spelled

end Expression

namespace Grammar

variable {grammar : Grammar} {keywords : List String}

/-- A reading of the rules holds of everything that their expressions spell by it. -/
def Agrees (grammar : Grammar) (keywords : List String)
    (reading : (rule : grammar.Rule) -> grammar.Value rule -> List Token -> Prop) : Prop :=
  ∀ rule value tokens, (grammar.body rule).Spells keywords reading value tokens ->
    reading rule value tokens

/-- A rule spells a value by the tokens that every such reading allows. -/
def Spells (grammar : Grammar) (keywords : List String) (rule : grammar.Rule)
    (value : grammar.Value rule) (tokens : List Token) : Prop :=
  ∀ reading, grammar.Agrees keywords reading -> reading rule value tokens

/-- The least reading agrees with the expressions of all rules. -/
theorem spells_agrees : grammar.Agrees keywords (grammar.Spells keywords) := by
  intro rule value tokens spelled reading agrees
  apply agrees
  exact Expression.Spells.mono (fun _ _ _ spelled => spelled reading agrees) _ spelled

/-- A rule spells what its expression spells. -/
theorem spells_iff {rule : grammar.Rule} {value : grammar.Value rule} {tokens : List Token} :
    grammar.Spells keywords rule value tokens ↔
      (grammar.body rule).Spells keywords (grammar.Spells keywords) value tokens := by
  constructor
  · intro spelled
    apply spelled fun rule value tokens =>
      (grammar.body rule).Spells keywords (grammar.Spells keywords) value tokens
    intro rule value tokens inner
    exact Expression.Spells.mono (fun _ _ _ => spells_agrees _ _ _) _ inner
  · exact spells_agrees rule value tokens

/-- What spells a value is derived. -/
theorem Spells.derives {rule : grammar.Rule} {value : grammar.Value rule} {tokens : List Token}
    (spelled : grammar.Spells keywords rule value tokens) :
    grammar.Derives keywords rule tokens := by
  apply spelled fun rule _ tokens => grammar.Derives keywords rule tokens
  intro rule value tokens inner
  refine derives_iff.2 (Expression.Spells.describes ?_ _ inner)
  exact fun _ _ _ derived => derived

end Grammar

end KiwiFront.Peg
