import KiwiFront.Proofs.Grammar.Sessions
import KiwiFront.Proofs.Peg.Endings

/-!
# Where the rules of the language end

Whatever a session over the language has come to, each rule ends from there on, and leaves the
cursor in place where it fails and further along within the buffer otherwise. Only the plain
lists succeed without a token.
-/

namespace KiwiFront

open Peg

/-- Nothing that was done in the buffer before keeps a rule from ending: a failure leaves the
cursor in place, an error leaves it there or further along, and a success further along, for
the plain lists not necessarily. No bound beyond that of the parser changes how it ends. -/
theorem rule_leavesCursor (packrat : Bool) (tokens : List Token)
    (steps : List (Step kiwiGrammar))
    (within : ∀ step ∈ steps, step.Within (Buffer.close tokens).length) (rule : KiwiRule) :
    let parser := (kiwiParser packrat tokens).afterSteps steps
    parser.LeavesCursor rule
        (rule ≠ .importList ∧ rule ≠ .topLevelObjectList ∧ rule ≠ .modifiers) ∧
      ∀ deeper, parser.bound ≤ deeper ->
        kiwiGrammar.runRule parser.setup deeper rule parser.state =
          kiwiGrammar.runRule parser.setup parser.bound rule parser.state := by
  intro parser
  have size : parser.setup.buffer.tokens.size = (Buffer.close tokens).length := by
    rw [show parser.setup = (kiwiParser packrat tokens).setup from Parser.afterSteps_setup _ steps]
    rfl
  have bound : parser.bound = kiwiBound tokens := Parser.afterSteps_bound _ steps
  have bounded : parser.state.Bounded (Buffer.close tokens).length KiwiRule.Consuming :=
    (kiwiParser packrat tokens).afterSteps_bounded kiwi_ranked.toForward
      (kiwiParser_bounded packrat tokens) within
  have leaves : parser.LeavesCursor rule rule.Consuming := by
    refine Parser.leavesCursor kiwi_ranked kiwi_layered.restoring (fun other => ?_)
      (size ▸ bounded) rule
    rw [size, bound]
    exact rank_lt_kiwiBound tokens other
  refine ⟨leaves.weaken ?_, fun deeper enough =>
    kiwiGrammar.runRule_within _ enough rule _ leaves.ends⟩
  cases rule <;> simp [KiwiRule.Consuming]

/-- A function without a name ends with an error behind its keyword, again after it has done
so before and its modifiers are remembered. -/
theorem rule_leavesCursor_again :
    let tokens := [Token.nameAt 0 0 "fun"]
    let steps : List (Step kiwiGrammar) := [.evaluate .functionDeclaration, .reset 0]
    let parser := (kiwiParser true tokens).afterSteps steps
    let ended := parser.evaluate (KiwiGrammar.sub .functionDeclaration)
    (∀ step ∈ steps, step.Within (Buffer.close tokens).length) ∧
      parser.LeavesCursor .functionDeclaration
        (KiwiRule.functionDeclaration ≠ .importList ∧
          KiwiRule.functionDeclaration ≠ .topLevelObjectList ∧
          KiwiRule.functionDeclaration ≠ .modifiers) ∧
      parser.mark = 0 ∧ parser.memoSize = 2 ∧
      ended.1 = .fatal (.forced "simpleIdentifier" ⟨0, 3⟩ 1) ∧ ended.2.mark = 1 := by
  intro tokens steps parser ended
  have within : ∀ step ∈ steps, step.Within (Buffer.close tokens).length := by
    intro step member
    simp only [steps, List.mem_cons, List.not_mem_nil, or_false] at member
    rcases member with rfl | rfl
    · trivial
    · exact Nat.zero_le _
  have fails : ended.1 = .fatal (.forced "simpleIdentifier" ⟨0, 3⟩ 1) := rfl
  refine ⟨within, ?_, rfl, ?_, fails, ?_⟩
  · exact (rule_leavesCursor true tokens steps within .functionDeclaration).1
  · decide +kernel
  · decide +kernel

end KiwiFront
