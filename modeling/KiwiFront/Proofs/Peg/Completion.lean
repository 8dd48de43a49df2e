import KiwiFront.Peg.Breakage
import KiwiFront.Proofs.Peg.Progress

/-!
# Completing what was read

The tokens that a grammar has read when a forced match is missing begin something that it
describes, if each part of a rule describes some tokens at all: the missing match comes, and
after it whatever its rule and the rules around it still ask for. A lookahead must not be
what broke off, since nothing completes one, and a forced match must not be empty, so that
something is missing indeed.
-/

namespace KiwiFront.Peg

namespace Expression

section Shape

variable {Rule : Type} {Value : Rule -> Type}

/-- Whether an expression describes some tokens, given the matchers that accept some token
and the rules that describe some. -/
def Possible (accepting : Matcher -> Prop) (possible : Rule -> Prop) {Result : Type} :
    Expression Rule Value Result -> Prop
  | .token matcher => accepting matcher
  | .succeed _ | .many _ | .look _ _ => True
  | .fail | .skip _ => False
  | .both first second => Possible accepting possible first ∧ Possible accepting possible second
  | .choice first second => Possible accepting possible first ∨ Possible accepting possible second
  | .force inner _ => Possible accepting possible inner
  | .map _ inner => Possible accepting possible inner
  | .build _ _ inner => Possible accepting possible inner
  | .call rule => possible rule

/-- Whether an expression never breaks off. -/
def Faultless {Result : Type} : Expression Rule Value Result -> Prop
  | .token _ | .succeed _ | .fail | .skip _ => True
  | .both first second => Faultless first ∧ Faultless second
  | .choice first second => Faultless first ∧ Faultless second
  | .many item => Faultless item
  | .look _ ahead => Faultless ahead
  | .map _ inner => Faultless inner
  | .force _ _ | .build _ _ _ | .call _ => False

/-- Whether all that an expression forces, and all that stands behind a part of it, is
possible. What it forces has to take a token, and what it looks ahead for must not break off. -/
def Completable (accepting : Matcher -> Prop) (consuming : Rule -> Prop) {Result : Type} :
    Expression Rule Value Result -> Prop
  | .token _ | .succeed _ | .fail | .skip _ | .call _ => True
  | .both first second => Completable accepting consuming first ∧
      Completable accepting consuming second ∧ second.Possible accepting fun _ => True
  | .choice first second =>
      Completable accepting consuming first ∧ Completable accepting consuming second
  | .many item => Completable accepting consuming item
  | .look _ ahead => ahead.Faultless
  | .force inner _ => Completable accepting consuming inner ∧
      (inner.Possible accepting fun _ => True) ∧ inner.Consumes consuming
  | .map _ inner => Completable accepting consuming inner
  | .build _ _ inner => Completable accepting consuming inner

end Shape

variable {Rule : Type} {Value : Rule -> Type} {Result : Type} {keywords : List String}
  {good : Token -> Prop} {consuming possible : Rule -> Prop}
  {described : Rule -> List Token -> Prop}

/-- Whether some good token is accepted by a matcher. -/
def Accepting (keywords : List String) (good : Token -> Prop) (matcher : Matcher) : Prop :=
  ∃ token, good token ∧ matcher.accepts keywords token = true

theorem Possible.exists_described
    (rules : ∀ rule, possible rule -> ∃ tokens, (∀ token ∈ tokens, good token) ∧
      described rule tokens)
    (expression : Expression Rule Value Result)
    (isPossible : expression.Possible (Accepting keywords good) possible) :
    ∃ tokens, (∀ token ∈ tokens, good token) ∧
      expression.Describes keywords described tokens := by
  induction expression with
  | token matcher =>
      obtain ⟨token, isGood, accepted⟩ := isPossible
      exact ⟨[token], List.forall_mem_singleton.2 isGood, token, accepted, rfl⟩
  | succeed | look => exact ⟨[], nofun, rfl⟩
  | many => exact ⟨[], nofun, .none⟩
  | fail | skip => exact isPossible.elim
  | both _ _ firstHypothesis secondHypothesis =>
      obtain ⟨left, leftGood, first⟩ := firstHypothesis isPossible.1
      obtain ⟨right, rightGood, second⟩ := secondHypothesis isPossible.2
      exact ⟨left ++ right, List.forall_mem_append.2 ⟨leftGood, rightGood⟩, left, right, rfl,
        first, second⟩
  | choice _ _ firstHypothesis secondHypothesis =>
      rcases isPossible with isPossible | isPossible
      · obtain ⟨tokens, allGood, first⟩ := firstHypothesis isPossible
        exact ⟨tokens, allGood, .inl first⟩
      · obtain ⟨tokens, allGood, second⟩ := secondHypothesis isPossible
        exact ⟨tokens, allGood, .inr second⟩
  | force _ _ inductionHypothesis | map _ _ inductionHypothesis
  | build _ _ _ inductionHypothesis => exact inductionHypothesis isPossible
  | call rule => exact rules rule isPossible

/-- An expression that has to consume describes no empty sequence. -/
theorem Consumes.ne_nil
    (rules : ∀ rule tokens, consuming rule -> described rule tokens -> tokens ≠ [])
    (expression : Expression Rule Value Result) (consumes : expression.Consumes consuming)
    {tokens : List Token} (isDescribed : expression.Describes keywords described tokens) :
    tokens ≠ [] := by
  induction expression generalizing tokens with
  | token matcher =>
      obtain ⟨token, _, rfl⟩ := isDescribed
      exact List.cons_ne_nil _ _
  | succeed | skip | many | look => exact consumes.elim
  | fail => exact isDescribed.elim
  | both _ _ firstHypothesis secondHypothesis =>
      obtain ⟨left, right, rfl, first, second⟩ := isDescribed
      rcases consumes with here | later
      · exact List.append_ne_nil_of_left_ne_nil (firstHypothesis here first) _
      · exact List.append_ne_nil_of_right_ne_nil _ (secondHypothesis later second)
  | choice _ _ firstHypothesis secondHypothesis =>
      exact isDescribed.elim (firstHypothesis consumes.1) (secondHypothesis consumes.2)
  | force _ _ inductionHypothesis | map _ _ inductionHypothesis
  | build _ _ _ inductionHypothesis => exact inductionHypothesis consumes isDescribed
  | call rule => exact rules rule tokens consumes isDescribed

theorem Faultless.not_breaks {spells : (rule : Rule) -> Value rule -> List Token -> Prop}
    {ofRule : Rule -> Fault -> List Token -> Prop} (expression : Expression Rule Value Result)
    (faultless : expression.Faultless) {fault : Fault} {tokens : List Token} :
    ¬ expression.Breaks keywords spells ofRule fault tokens := by
  induction expression generalizing tokens with
  | token | succeed | fail | skip => exact id
  | both _ _ firstHypothesis secondHypothesis =>
      rintro (here | ⟨_, _, _, _, _, later⟩)
      · exact firstHypothesis faultless.1 here
      · exact secondHypothesis faultless.2 later
  | choice _ _ firstHypothesis secondHypothesis =>
      exact fun broken => broken.elim (firstHypothesis faultless.1) (secondHypothesis faultless.2)
  | many _ inductionHypothesis =>
      rintro ⟨_, _, _, _, _, later⟩
      exact inductionHypothesis faultless later
  | look _ _ inductionHypothesis | map _ _ inductionHypothesis =>
      exact inductionHypothesis faultless
  | force | build | call => exact faultless.elim

/-- Some good tokens, one at least, that complete others to what is described. -/
def Completes (good : Token -> Prop) (whole : List Token -> Prop) (tokens : List Token) : Prop :=
  ∃ completion, completion ≠ [] ∧ (∀ token ∈ completion, good token) ∧
    whole (tokens ++ completion)

/-- What an expression has read before a missing match is completed, if it is so for calls. -/
theorem Breaks.completes {spells : (rule : Rule) -> Value rule -> List Token -> Prop}
    {ofRule : Rule -> Fault -> List Token -> Prop} {expected : String}
    (rules : ∀ rule, ∃ tokens, (∀ token ∈ tokens, good token) ∧ described rule tokens)
    (nonempty : ∀ rule tokens, consuming rule -> described rule tokens -> tokens ≠ [])
    (spelled : ∀ rule value tokens, spells rule value tokens -> described rule tokens)
    (calls : ∀ rule tokens, ofRule rule (.missing expected) tokens ->
      Completes good (described rule) tokens)
    (expression : Expression Rule Value Result)
    (completable : expression.Completable (Accepting keywords good) consuming)
    {tokens : List Token}
    (broken : expression.Breaks keywords spells ofRule (.missing expected) tokens) :
    Completes good (expression.Describes keywords described) tokens := by
  induction expression generalizing tokens with
  | token | succeed | fail | skip => exact broken.elim
  | both first second firstHypothesis secondHypothesis =>
      obtain ⟨firstCompletable, secondCompletable, isPossible⟩ := completable
      rcases broken with here | ⟨value, left, right, rfl, before, later⟩
      · obtain ⟨completion, more, allGood, whole⟩ := firstHypothesis firstCompletable here
        -- The second part has not been reached: any tokens it describes will do.
        obtain ⟨rest, restGood, behind⟩ :=
          isPossible.exists_described (fun rule _ => rules rule) second
        refine ⟨completion ++ rest, List.append_ne_nil_of_left_ne_nil more _,
          List.forall_mem_append.2 ⟨allGood, restGood⟩, _, _, ?_, whole, behind⟩
        rw [List.append_assoc]
      · obtain ⟨completion, more, allGood, whole⟩ := secondHypothesis secondCompletable later
        exact ⟨completion, more, allGood, left, _, List.append_assoc _ _ _,
          Spells.describes spelled first before, whole⟩
  | choice _ _ firstHypothesis secondHypothesis =>
      rcases broken with here | here
      · obtain ⟨completion, more, allGood, whole⟩ := firstHypothesis completable.1 here
        exact ⟨completion, more, allGood, .inl whole⟩
      · obtain ⟨completion, more, allGood, whole⟩ := secondHypothesis completable.2 here
        exact ⟨completion, more, allGood, .inr whole⟩
  | many item inductionHypothesis =>
      obtain ⟨values, left, right, rfl, before, later⟩ := broken
      obtain ⟨completion, more, allGood, whole⟩ := inductionHypothesis completable later
      have items : Repeats (item.Describes keywords described) left :=
        before.repeats fun _ _ => Spells.describes spelled item
      refine ⟨completion, more, allGood, ?_⟩
      rw [List.append_assoc]
      exact items.concat whole
  | look _ ahead => exact absurd broken (Faultless.not_breaks ahead completable)
  | force inner _ inductionHypothesis =>
      obtain ⟨innerCompletable, isPossible, consumes⟩ := completable
      rcases broken with here | ⟨_, rfl⟩
      · exact inductionHypothesis innerCompletable here
      · obtain ⟨completion, allGood, whole⟩ :=
          isPossible.exists_described (fun rule _ => rules rule) inner
        exact ⟨completion, consumes.ne_nil nonempty inner whole, allGood, whole⟩
  | map _ _ inductionHypothesis => exact inductionHypothesis completable broken
  | build _ _ _ inductionHypothesis =>
      rcases broken with here | ⟨_, _, _, other, _⟩
      · exact inductionHypothesis completable here
      · cases other
  | call rule => exact calls rule tokens broken

end Expression

open Expression in
/-- A grammar whose rules all describe something, as their heights tell, and what they have
read is completed by good tokens. -/
structure Grammar.Completable (grammar : Grammar) (keywords : List String) (good : Token -> Prop)
    (consuming : grammar.Rule -> Prop) (height : grammar.Rule -> Nat) : Prop where
  consumes : ∀ rule, consuming rule -> (grammar.body rule).Consumes consuming
  possible : ∀ rule, (grammar.body rule).Possible (Accepting keywords good) fun other =>
    height other < height rule
  completable : ∀ rule, (grammar.body rule).Completable (Accepting keywords good) consuming

namespace Grammar.Completable

variable {grammar : Grammar} {keywords : List String} {good : Token -> Prop}
  {consuming : grammar.Rule -> Prop} {height : grammar.Rule -> Nat} {rule : grammar.Rule}
  {tokens : List Token}

theorem exists_derived (completable : grammar.Completable keywords good consuming height)
    (rule : grammar.Rule) :
    ∃ tokens, (∀ token ∈ tokens, good token) ∧ grammar.Derives keywords rule tokens := by
  induction bound : height rule using Nat.strongRecOn generalizing rule with
  | ind bound inductionHypothesis =>
      subst bound
      obtain ⟨tokens, allGood, described⟩ := (completable.possible rule).exists_described
        (fun other lower => inductionHypothesis _ lower other rfl) _
      exact ⟨tokens, allGood, derives_iff.2 described⟩

theorem ne_nil_of_derives (completable : grammar.Completable keywords good consuming height)
    (isConsuming : consuming rule) (derived : grammar.Derives keywords rule tokens) :
    tokens ≠ [] := by
  obtain ⟨height, derived⟩ := derived
  induction height generalizing rule tokens with
  | zero => exact derived.elim
  | succ height inductionHypothesis =>
      exact (completable.consumes rule isConsuming).ne_nil
        (fun other tokens isConsuming derived => inductionHypothesis isConsuming derived) _ derived

/-- What a rule has read before a missing match can be completed to what it derives. -/
theorem completes (completable : grammar.Completable keywords good consuming height)
    {expected : String} (broken : grammar.Breaks keywords rule (.missing expected) tokens) :
    Expression.Completes good (grammar.Derives keywords rule) tokens := by
  refine broken (fun rule fault tokens => fault = .missing expected ->
    Expression.Completes good (grammar.Derives keywords rule) tokens) ?_ rfl
  rintro rule _ tokens inner rfl
  obtain ⟨completion, more, allGood, whole⟩ := inner.completes completable.exists_derived
    (fun other tokens isConsuming derived => completable.ne_nil_of_derives isConsuming derived)
    (fun _ _ _ => Spells.derives) (fun _ _ called => called rfl) _ (completable.completable rule)
  exact ⟨completion, more, allGood, derives_iff.2 whole⟩

end Grammar.Completable

end KiwiFront.Peg
