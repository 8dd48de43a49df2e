import KiwiFront.Parse
import KiwiFront.Proofs.Peg.Sessions

/-!
# Sessions over the grammar of the language

The rules of the language are ranked and layered: parentheses alone let a rule come back
to one of its callers, and the only rule that grows reads nothing but names and dots. All
sessions over the grammar therefore end, and none can tell whether plain outcomes are
remembered.
-/

namespace KiwiFront

open Peg

namespace KiwiRule

/-- Looking a rule up by its own name finds it. -/
theorem ofName?_name (rule : KiwiRule) : ofName? rule.name = some rule := by
  cases rule <;> rfl

/-- No two rules share a name, so a memo entry tells which rule stored it. -/
theorem name_injective (rule other : KiwiRule) (same : rule.name = other.name) :
    rule = other := by
  have found := ofName?_name rule
  rw [same, ofName?_name] at found
  exact (Option.some.inj found).symm

/-- The rules that cannot succeed without a token: all but the plain lists. -/
def Consuming : KiwiRule -> Prop
  | importList | topLevelObjectList | modifiers => False
  | _ => True

/-- How deep calls nest below a rule before the next token is read. -/
def rank : KiwiRule -> Nat
  | simpleIdentifier | semi | modifier | packageHeader | importHeader | importAlias => 1
  | identifier | simpleUserType | importList | importSuffix | modifiers => 2
  | userType | parenthesizedType | functionDeclaration => 3
  | type | declaration => 4
  | topLevelObject => 5
  | topLevelObjectList => 6
  | start => 7

/-- The rules that a user type consists of. -/
def Flat : KiwiRule -> Prop
  | simpleIdentifier | simpleUserType => True
  | _ => False

end KiwiRule

namespace KiwiGrammar

section Shape

attribute [local simp] body sub keyword literal forcedLiteral forcedSegment forcedIdentifier
  forcedSemi start packageHeader identifier importHeader importAlias importWildcard
  functionDeclaration parenthesizedType qualifiedType simpleType Expression.alternatives
  Expression.optional Expression.after Expression.before

/-- No rule jumps to a mark. -/
theorem jumpless (rule : KiwiRule) : (body rule).Jumpless := by
  cases rule <;> simp [Expression.Jumpless]

/-- A consuming rule's body reads a token before it can succeed. -/
theorem consumes (rule : KiwiRule) (consuming : rule.Consuming) :
    (body rule).Consumes KiwiRule.Consuming := by
  cases rule <;> simp [Expression.Consumes, KiwiRule.Consuming] at consuming ⊢

/-- A rule calls lower rules in place. Behind a parenthesis it may call one that is higher
by one. -/
theorem guarded (rule : KiwiRule) : (body rule).Guarded KiwiRule.Consuming
    (fun other => other.rank < rule.rank ∨ (other = rule ∧ rule.mode = .leftRecursive))
    (fun other => other.rank < rule.rank + 2) := by
  cases rule <;>
    simp [Expression.Guarded, Expression.Consumes, KiwiRule.Consuming, KiwiRule.rank,
      KiwiRule.mode]

/-- A flat rule calls flat rules only. -/
theorem flat_calls (rule : KiwiRule) (isFlat : rule.Flat) :
    (body rule).Calls KiwiRule.Flat := by
  cases rule <;> simp [Expression.Calls, KiwiRule.Flat] at isFlat ⊢

/-- A growing rule calls flat rules and growing rules only. -/
theorem growing_calls (rule : KiwiRule) (growing : rule.mode = .leftRecursive) :
    (body rule).Calls fun other => other.Flat ∨ other.mode = .leftRecursive := by
  cases rule <;> simp [Expression.Calls, KiwiRule.Flat, KiwiRule.mode] at growing ⊢

/-- Outside the growing rules a failing body leaves the cursor where it started. -/
theorem restoring (rule : KiwiRule) (steady : rule.mode ≠ .leftRecursive) :
    (body rule).Restoring := by
  cases rule <;> simp [Expression.Restoring, KiwiRule.mode] at steady ⊢

end Shape

end KiwiGrammar

namespace KiwiRule

/-- Every rank is positive, as ranked recursion needs. -/
theorem rank_pos (rule : KiwiRule) : 0 < rule.rank := by
  cases rule <;> simp [rank]

/-- No rank is above seven. -/
theorem rank_le (rule : KiwiRule) : rule.rank ≤ 7 := by
  cases rule <;> simp [rank]

/-- No flat rule grows a seed. -/
theorem mode_of_flat (rule : KiwiRule) (isFlat : rule.Flat) : rule.mode ≠ .leftRecursive := by
  cases rule <;> simp [Flat, mode] at isFlat ⊢

end KiwiRule

/-- The grammar is ranked: a call that consumes nothing goes to a rule of a lower rank. -/
theorem kiwi_ranked : kiwiGrammar.Ranked KiwiRule.Consuming 2 KiwiRule.rank where
  injective := KiwiRule.name_injective
  jumpless := KiwiGrammar.jumpless
  consumes := KiwiGrammar.consumes
  positive := KiwiRule.rank_pos
  sloped := Nat.zero_lt_two
  guarded := KiwiGrammar.guarded

/-- The flat rules lie below the growing ones. -/
theorem kiwi_layered : kiwiGrammar.Layered KiwiRule.Flat where
  injective := KiwiRule.name_injective
  steady := KiwiRule.mode_of_flat
  flatCalls := KiwiGrammar.flat_calls
  growingCalls := KiwiGrammar.growing_calls
  restoring := KiwiGrammar.restoring

/-- Closing tokens adds one at most. -/
theorem Peg.Buffer.length_close_le (tokens : List Token) :
    (Buffer.close tokens).length ≤ tokens.length + 1 := by
  unfold Buffer.close
  split
  · exact Nat.le_succ _
  · exact Nat.le_of_eq List.length_append

/-- The bound of a parser is as deep as the rules nest. -/
theorem rank_lt_kiwiBound (tokens : List Token) (rule : KiwiRule) :
    2 * (Buffer.close tokens).length + rule.rank < kiwiBound tokens := by
  have closed := Buffer.length_close_le tokens
  have low := rule.rank_le
  unfold kiwiBound
  omega

/-- Nothing is remembered by a new parser, and its cursor is at the first token. -/
theorem kiwiParser_bounded (packrat : Bool) (tokens : List Token) :
    (kiwiParser packrat tokens).state.Bounded (Buffer.close tokens).length
      KiwiRule.Consuming := by
  refine ⟨Nat.zero_le _, ?_⟩
  intro rule mark stored stop found
  rw [show (kiwiParser packrat tokens).state.memo = .empty from rfl, MemoStore.find?_empty] at found
  cases found

/-- Every rule of the language ends in a new parser. -/
theorem kiwi_runRule_ends (packrat : Bool) (tokens : List Token) (rule : KiwiRule) :
    let parser := kiwiParser packrat tokens
    (kiwiGrammar.runRule parser.setup parser.bound rule).EndsFrom (· = parser.state) := by
  refine Parser.runRule_ends kiwi_ranked ?_ (kiwiParser_bounded packrat tokens) rule
  exact rank_lt_kiwiBound tokens

/-- The two settings of the parser are twins, which differ in the mode of the flat rules alone. -/
theorem kiwiParser_twin (tokens : List Token) :
    Parser.Twin KiwiRule.Flat (kiwiParser false tokens) (kiwiParser true tokens) :=
  .ofTokens tokens KiwiGrammar.keywords (kiwiBound tokens)

/-- All steps of a session over the language end that keep the cursor in the buffer. -/
theorem kiwi_reports_end (packrat : Bool) (tokens : List Token) (steps : List (Step kiwiGrammar))
    (within : ∀ step ∈ steps, step.Within (Buffer.close tokens).length) :
    ∀ report ∈ (kiwiParser packrat tokens).reports steps, report.answer.Ends := by
  refine Parser.reports_end kiwi_ranked ?_ (kiwiParser_bounded packrat tokens) within
  exact rank_lt_kiwiBound tokens

/-- A session cannot tell whether plain outcomes are remembered: as long as it keeps the
cursor in the buffer, all its steps end, and they do so with the same answers and the same
cursors, also behind a step that has ended with an error. -/
theorem reports_packrat (tokens : List Token) (steps : List (Step kiwiGrammar))
    (within : ∀ step ∈ steps, step.Within (Buffer.close tokens).length) :
    (kiwiParser true tokens).reports steps = (kiwiParser false tokens).reports steps ∧
      ∀ report ∈ (kiwiParser true tokens).reports steps, report.answer.Ends := by
  refine ⟨?_, kiwi_reports_end true tokens steps within⟩
  exact (kiwiParser_twin tokens).reports kiwi_layered (kiwi_reports_end false tokens steps within)

/-- A function without a name ends with an error each time, and a step behind it goes on. -/
theorem reports_packrat_beyond_error :
    let tokens := [Token.nameAt 0 0 "fun"]
    let steps : List (Step kiwiGrammar) :=
      [.evaluate .functionDeclaration, .reset 0, .evaluate .functionDeclaration, .reset 1,
        .parseWith .modifiers]
    (∀ step ∈ steps, step.Within (Buffer.close tokens).length) ∧
      (kiwiParser true tokens).reports steps = (kiwiParser false tokens).reports steps ∧
      ((kiwiParser true tokens).reports steps).head? =
        some ⟨.ended .functionDeclaration (.fatal (.forced "simpleIdentifier" ⟨0, 3⟩ 1)), 1⟩ := by
  intro tokens steps
  have within : ∀ step ∈ steps, step.Within (Buffer.close tokens).length := by
    intro step member
    simp only [steps, List.mem_cons, List.not_mem_nil, or_false] at member
    rcases member with rfl | rfl | rfl | rfl | rfl
    · trivial
    · exact Nat.zero_le _
    · trivial
    · exact Nat.le_of_ble_eq_true rfl
    · trivial
  exact ⟨within, (reports_packrat tokens steps within).1, rfl⟩

end KiwiFront
