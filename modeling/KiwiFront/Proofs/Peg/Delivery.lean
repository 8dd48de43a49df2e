import KiwiFront.Peg.Breakage

/-!
# What parts deliver

Whether a node can be built depends on the parts that it is built from. An expression
delivers good values if its parts do, given what the rules deliver and that the tokens fit,
and if every node can be built from good parts and is good then. A grammar whose rules all
deliver never breaks off at a node over tokens that fit. What the causes of a failure to
build are can be said of each expression apart from that.
-/

namespace KiwiFront.Peg

namespace Expression

section Shape

variable {Rule : Type} {Value : Rule -> Type}

/-- From tokens that fit and from what rules deliver an expression makes good values. -/
def Delivers (fits : Token -> Prop) (ofRule : (rule : Rule) -> Value rule -> Prop)
    {Result : Type} : Expression Rule Value Result -> (good : Result -> Prop) -> Prop
  | .token _, good => ∀ token, fits token -> good token
  | .succeed value, good => good value
  | .fail, _ | .skip _, _ => True
  | .both first second, good =>
      ∃ goodFirst goodSecond, (∀ left right, goodFirst left -> goodSecond right ->
        good (left, right)) ∧ Delivers fits ofRule first goodFirst ∧
          Delivers fits ofRule second goodSecond
  | .choice first second, good =>
      Delivers fits ofRule first good ∧ Delivers fits ofRule second good
  | .many item, good =>
      ∃ goodItem, (∀ items : List _, (∀ value ∈ items, goodItem value) -> good items) ∧
        Delivers fits ofRule item goodItem
  | .look _ ahead, good => good () ∧ ∃ goodAhead, Delivers fits ofRule ahead goodAhead
  | .force inner _, good => Delivers fits ofRule inner good
  | .map change inner, good =>
      ∃ goodInner, (∀ source, goodInner source -> good (change source)) ∧
        Delivers fits ofRule inner goodInner
  | .build _ make inner, good =>
      ∃ goodInner, (∀ source, goodInner source -> ∃ node, make source = .ok node ∧ good node) ∧
        Delivers fits ofRule inner goodInner
  | .call rule, good => ∀ value, ofRule rule value -> good value

/-- Whether nothing that an expression builds fails for a cause that is not allowed. -/
def FailsBy (allowed : NodeError -> Prop) {Result : Type} : Expression Rule Value Result -> Prop
  | .token _ | .succeed _ | .fail | .skip _ | .call _ => True
  | .both first second => FailsBy allowed first ∧ FailsBy allowed second
  | .choice first second => FailsBy allowed first ∧ FailsBy allowed second
  | .many item => FailsBy allowed item
  | .look _ ahead => FailsBy allowed ahead
  | .force inner _ => FailsBy allowed inner
  | .map _ inner => FailsBy allowed inner
  | .build _ make inner =>
      (∀ source cause, make source = .error cause -> allowed cause) ∧ FailsBy allowed inner

end Shape

variable {Rule : Type} {Value : Rule -> Type} {Result : Type} {keywords : List String}
  {spells : (rule : Rule) -> Value rule -> List Token -> Prop}
  {broken : Rule -> Fault -> List Token -> Prop} {tokens : List Token}

section Delivery

variable {fits : Token -> Prop} {ofRule : (rule : Rule) -> Value rule -> Prop}

namespace Delivers

/-- A single token delivers itself. -/
theorem token (matcher : Matcher) :
    (Expression.token matcher : Expression Rule Value Token).Delivers fits ofRule fits :=
  fun _ => id

/-- A call delivers what is asked of the called rule. -/
theorem call (rule : Rule) :
    (Expression.call rule : Expression Rule Value (Value rule)).Delivers fits ofRule
      (ofRule rule) :=
  fun _ => id

variable {Source Target : Type} {inner : Expression Rule Value Source}
  {next : Expression Rule Value Target} {goodInner : Source -> Prop} {goodNext : Target -> Prop}
  (delivers : inner.Delivers fits ofRule goodInner)
include delivers

/-- A sequence delivers the pair of what its parts deliver. -/
theorem both (nextDelivers : next.Delivers fits ofRule goodNext) :
    (Expression.both inner next).Delivers fits ofRule fun pair =>
      goodInner pair.1 ∧ goodNext pair.2 :=
  ⟨goodInner, goodNext, fun _ _ => .intro, delivers, nextDelivers⟩

/-- Repetition delivers items that are all good. -/
theorem many : (Expression.many inner).Delivers fits ofRule fun items =>
    ∀ item ∈ items, goodInner item :=
  ⟨goodInner, fun _ => id, delivers⟩

/-- A change that keeps values good may follow. -/
theorem map {change : Source -> Target}
    (changes : ∀ source, goodInner source -> goodNext (change source)) :
    (Expression.map change inner).Delivers fits ofRule goodNext :=
  ⟨goodInner, changes, delivers⟩

/-- A constructor that accepts every good source delivers what it makes of it. -/
theorem build {type : String} {make : Source -> Except NodeError Target}
    (makes : ∀ source, goodInner source -> ∃ node, make source = .ok node ∧ goodNext node) :
    (Expression.build type make inner).Delivers fits ofRule goodNext :=
  ⟨goodInner, makes, delivers⟩

/-- Forcing changes failures only, so it delivers what its body does. -/
theorem force (expected : String) :
    (Expression.force inner expected).Delivers fits ofRule goodInner :=
  delivers

/-- A lookahead delivers nothing. -/
theorem look (positive : Bool) :
    (Expression.look positive inner).Delivers fits ofRule fun _ => True :=
  ⟨trivial, goodInner, delivers⟩

/-- A single alternative delivers what its only branch does. -/
theorem alternative : (alternatives [inner]).Delivers fits ofRule goodInner :=
  ⟨delivers, trivial⟩

/-- An optional part delivers nothing or a good value. -/
theorem optional : (Expression.optional inner).Delivers fits ofRule fun found =>
    ∀ value ∈ found, goodInner value :=
  ⟨delivers.map fun _ good _ same => Option.some.inj same ▸ good, nofun⟩

/-- Of a sequence whose first value is dropped the second one is delivered. -/
theorem after (nextDelivers : next.Delivers fits ofRule goodNext) :
    (Expression.after inner next).Delivers fits ofRule goodNext :=
  (delivers.both nextDelivers).map fun _ => And.right

/-- Of a sequence whose second value is dropped the first one is delivered. -/
theorem before (nextDelivers : next.Delivers fits ofRule goodNext) :
    (Expression.before inner next).Delivers fits ofRule goodInner :=
  (delivers.both nextDelivers).map fun _ => And.left

end Delivers

/-- What a reading delivers is good, by induction on the expression, when the tokens read all fit.
-/
theorem Delivers.spelled
    (calls : ∀ rule value tokens, spells rule value tokens -> (∀ token ∈ tokens, fits token) ->
      ofRule rule value)
    (expression : Expression Rule Value Result) {good : Result -> Prop}
    (delivers : expression.Delivers fits ofRule good) {value : Result}
    (spelled : expression.Spells keywords spells value tokens)
    (allFit : ∀ token ∈ tokens, fits token) : good value := by
  induction expression generalizing tokens with
  | token =>
      obtain ⟨_, rfl⟩ := spelled
      exact delivers value (allFit value List.mem_cons_self)
  | succeed =>
      obtain ⟨rfl, _⟩ := spelled
      exact delivers
  | fail | skip => exact spelled.elim
  | both _ _ firstHypothesis secondHypothesis =>
      obtain ⟨goodFirst, goodSecond, pairs, first, second⟩ := delivers
      obtain ⟨left, right, rfl, before, after⟩ := spelled
      obtain ⟨leftFit, rightFit⟩ := List.forall_mem_append.1 allFit
      exact pairs _ _ (firstHypothesis first before leftFit)
        (secondHypothesis second after rightFit)
  | choice _ _ firstHypothesis secondHypothesis =>
      rcases spelled with here | here
      · exact firstHypothesis delivers.1 here allFit
      · exact secondHypothesis delivers.2 here allFit
  | many item inductionHypothesis =>
      obtain ⟨goodItem, lists, items⟩ := delivers
      refine lists value fun element member => ?_
      obtain ⟨piece, within, here⟩ := SpellsEach.of_mem spelled member
      exact inductionHypothesis items here fun token inPiece => allFit token (within.subset inPiece)
  | look => exact delivers.1
  | force _ _ inductionHypothesis => exact inductionHypothesis delivers spelled allFit
  | map _ _ inductionHypothesis =>
      obtain ⟨goodInner, changes, inner⟩ := delivers
      obtain ⟨source, rfl, here⟩ := spelled
      exact changes source (inductionHypothesis inner here allFit)
  | build _ _ _ inductionHypothesis =>
      obtain ⟨goodInner, makes, inner⟩ := delivers
      obtain ⟨source, made, here⟩ := spelled
      obtain ⟨node, alsoMade, isGood⟩ := makes source (inductionHypothesis inner here allFit)
      rw [Except.ok.inj (made.symm.trans alsoMade)]
      exact isGood
  | call rule => exact delivers value (calls rule value tokens spelled allFit)

/-- Over tokens that fit, an expression that delivers finds nothing that cannot be built. -/
theorem Delivers.not_breaks
    (calls : ∀ rule value tokens, spells rule value tokens -> (∀ token ∈ tokens, fits token) ->
      ofRule rule value)
    {cause : NodeError}
    (unbroken : ∀ rule tokens, (∀ token ∈ tokens, fits token) ->
      ¬ broken rule (.unbuildable cause) tokens)
    (expression : Expression Rule Value Result) {good : Result -> Prop}
    (delivers : expression.Delivers fits ofRule good) (allFit : ∀ token ∈ tokens, fits token) :
    ¬ expression.Breaks keywords spells broken (.unbuildable cause) tokens := by
  induction expression generalizing tokens with
  | token | succeed | fail | skip => exact id
  | both _ _ firstHypothesis secondHypothesis =>
      obtain ⟨_, _, _, first, second⟩ := delivers
      rintro (here | ⟨_, _, _, rfl, _, later⟩)
      · exact firstHypothesis first allFit here
      · exact secondHypothesis second (List.forall_mem_append.1 allFit).2 later
  | choice _ _ firstHypothesis secondHypothesis =>
      rintro (here | here)
      · exact firstHypothesis delivers.1 allFit here
      · exact secondHypothesis delivers.2 allFit here
  | many _ inductionHypothesis =>
      obtain ⟨_, _, item⟩ := delivers
      rintro ⟨_, _, _, rfl, _, later⟩
      exact inductionHypothesis item (List.forall_mem_append.1 allFit).2 later
  | look _ _ inductionHypothesis =>
      obtain ⟨_, _, ahead⟩ := delivers
      exact inductionHypothesis ahead allFit
  | force _ _ inductionHypothesis =>
      rintro (here | ⟨other, _⟩)
      · exact inductionHypothesis delivers allFit here
      · cases other
  | map _ _ inductionHypothesis =>
      obtain ⟨_, _, inner⟩ := delivers
      exact inductionHypothesis inner allFit
  | build _ _ inner inductionHypothesis =>
      obtain ⟨_, makes, innerDelivers⟩ := delivers
      rintro (here | ⟨source, other, failed, _, here⟩)
      · exact inductionHypothesis innerDelivers allFit here
      · obtain ⟨node, made, _⟩ := makes source (innerDelivers.spelled calls inner here allFit)
        cases made.symm.trans failed
  | call rule => exact unbroken rule tokens allFit

end Delivery

/-- An expression breaks off at nodes for allowed causes only, if its calls do. -/
theorem FailsBy.of_breaks {allowed : NodeError -> Prop} {cause : NodeError}
    (calls : ∀ rule tokens, broken rule (.unbuildable cause) tokens -> allowed cause)
    (expression : Expression Rule Value Result) (failsBy : expression.FailsBy allowed)
    (breaks : expression.Breaks keywords spells broken (.unbuildable cause) tokens) :
    allowed cause := by
  induction expression generalizing tokens with
  | token | succeed | fail | skip => exact breaks.elim
  | both _ _ firstHypothesis secondHypothesis =>
      rcases breaks with here | ⟨_, _, _, _, _, later⟩
      · exact firstHypothesis failsBy.1 here
      · exact secondHypothesis failsBy.2 later
  | choice _ _ firstHypothesis secondHypothesis =>
      exact breaks.elim (firstHypothesis failsBy.1) (secondHypothesis failsBy.2)
  | many _ inductionHypothesis =>
      obtain ⟨_, _, _, _, _, later⟩ := breaks
      exact inductionHypothesis failsBy later
  | look _ _ inductionHypothesis | map _ _ inductionHypothesis =>
      exact inductionHypothesis failsBy breaks
  | force _ _ inductionHypothesis =>
      rcases breaks with here | ⟨other, _⟩
      · exact inductionHypothesis failsBy here
      · cases other
  | build _ _ _ inductionHypothesis =>
      rcases breaks with here | ⟨source, _, failed, ⟨⟩, _⟩
      · exact inductionHypothesis failsBy.2 here
      · exact failsBy.1 source cause failed
  | call rule => exact calls rule tokens breaks

end Expression

namespace Grammar

variable {grammar : Grammar} {keywords : List String} {fits : Token -> Prop}
  {good : (rule : grammar.Rule) -> grammar.Value rule -> Prop} {rule : grammar.Rule}
  {tokens : List Token}

/-- What tokens that fit spell is good, if all rules deliver. -/
theorem Spells.delivered
    (delivers : ∀ rule, (grammar.body rule).Delivers fits good (good rule))
    {value : grammar.Value rule} (spelled : grammar.Spells keywords rule value tokens)
    (allFit : ∀ token ∈ tokens, fits token) : good rule value := by
  refine spelled (fun rule value tokens => (∀ token ∈ tokens, fits token) -> good rule value) ?_
    allFit
  intro rule value tokens inner allFit
  exact (delivers rule).spelled (fun _ _ _ called => called) _ inner allFit

/-- No constructor refuses its parts where every rule delivers what the constructors above it need.
-/
theorem Breaks.not_unbuildable
    (delivers : ∀ rule, (grammar.body rule).Delivers fits good (good rule))
    {cause : NodeError} (allFit : ∀ token ∈ tokens, fits token) :
    ¬ grammar.Breaks keywords rule (.unbuildable cause) tokens := by
  intro broken
  refine broken (fun rule fault tokens => fault = .unbuildable cause ->
    ¬ ∀ token ∈ tokens, fits token) ?_ rfl allFit
  rintro rule _ tokens inner rfl allFit
  refine (delivers rule).not_breaks (fun _ _ _ spelled => spelled.delivered delivers)
    (fun other tokens allFit called => called rfl allFit) _ allFit inner

/-- The nodes of a grammar cannot be built for allowed causes only. -/
theorem Breaks.allowed {allowed : NodeError -> Prop}
    (failsBy : ∀ rule, (grammar.body rule).FailsBy allowed) {cause : NodeError}
    (broken : grammar.Breaks keywords rule (.unbuildable cause) tokens) : allowed cause := by
  refine broken (fun rule fault tokens => fault = .unbuildable cause -> allowed cause) ?_ rfl
  rintro rule _ tokens inner rfl
  exact (failsBy rule).of_breaks (fun _ _ called => called rfl) _ inner

end Grammar

end KiwiFront.Peg
