import KiwiFront.Proofs.Grammar.DottedNames
import KiwiFront.Proofs.Peg.Accounting

/-!
# What remembering saves the rules of the language

A parser of the language that remembers evaluates each of its rules once at a mark, and user
types as often again as they grow. All that it misses it remembers, as long as no error ends a
step; and no error lets a rule begin twice in one parse.
-/

namespace KiwiFront

open Peg KiwiGrammar

variable {tokens : List Token}

/-- The ledger of a session without errors is balanced. -/
theorem kiwi_ledger {steps : List (Step kiwiGrammar)}
    (within : ∀ step ∈ steps, step.Within (Buffer.close tokens).length)
    (settled : ∀ report ∈ (kiwiParser true tokens).reports steps, report.answer.Settled) :
    ((kiwiParser true tokens).afterSteps steps).state.Ledger (Buffer.close tokens).length
      [] [] := by
  refine Parser.afterSteps_ledger kiwi_ranked ?_ rfl (kiwiParser_bounded true tokens)
    (State.Ledger.initial _) within settled
  exact rank_lt_kiwiBound tokens

/-- Only user types grow. -/
theorem growths_userType {size : Nat} {pending due : Places} {state : State kiwiGrammar}
    (ledger : state.Ledger size pending due) :
    state.profile.growths = (state.growths "userType").length := by
  refine state.growths_profile fun other start stop member => ?_
  obtain ⟨rule, growing, rfl⟩ := ledger.grown other start stop member
  cases rule <;> first | rfl | cases growing

/-- No memoized rule begins twice at a mark in a parse, however it ends. -/
theorem parse_enteredOnce (tokens : List Token) :
    ((kiwiParser true tokens).parseWith (KiwiGrammar.sub .start)).2.state.EnteredOnce := by
  exact Parser.parseWith_enteredOnce kiwi_ranked rfl (kiwiParser_bounded true tokens)
    (State.Ledger.initial _) KiwiRule.start

/-- What a balanced ledger says when nothing is pending. -/
theorem accounts_of_ledger {size : Nat} {parser : Parser kiwiGrammar}
    (ledger : parser.state.Ledger size [] []) :
    parser.memoSize = parser.profile.memoMisses ∧
      (∀ (rule : KiwiRule) mark, mark ∈ parser.state.memo.marks rule.name size ↔
        parser.state.memo.find? rule.name mark ≠ none) ∧
      (∀ rule : KiwiRule, rule.mode = .memoized ->
        parser.profile.invocationsOf rule.name = (parser.state.memo.marks rule.name size).length ∧
          parser.profile.invocationsOf rule.name ≤ size + 1) ∧
      parser.profile.invocationsOf KiwiRule.userType.name = parser.profile.growths +
        (parser.state.memo.marks KiwiRule.userType.name size).length := by
  have missed : parser.state.memo.size + 0 = parser.state.misses := ledger.missed.symm
  refine ⟨missed.trans (State.memoMisses_profile _).symm, ?_, ?_, ?_⟩
  · intro rule mark
    exact MemoStore.mem_marks.trans
      ⟨And.right, fun found => ⟨ledger.remembered_within _ _ found, found⟩⟩
  · intro rule memoized
    have steady : rule.mode ≠ .leftRecursive := by
      rw [memoized]
      exact nofun
    have noGrowth : parser.state.growths rule.name = [] :=
      ledger.growths_eq_nil KiwiRule.name_injective steady
    have invocations : parser.profile.invocationsOf rule.name =
        (parser.state.memo.marks rule.name size).length := by
      refine (State.invocationsOf_profile _ _).trans ((ledger.length_entries rule.name).trans ?_)
      rw [noGrowth, List.length_nil, Nat.zero_add]
    exact ⟨invocations, invocations ▸ MemoStore.length_marks_le _ _ _⟩
  · have growths : parser.profile.growths = (parser.state.growths KiwiRule.userType.name).length :=
      growths_userType ledger
    rw [growths]
    exact (State.invocationsOf_profile _ _).trans (ledger.length_entries _)

/-- In a session without errors the store has an outcome for every miss, a memoized rule was
evaluated once for each mark where it is remembered, all of them within the buffer, and user types
once more for each time that they grew. In a parse, however it ends, no memoized rule is evaluated
twice at a mark. -/
theorem kiwi_accounting (tokens : List Token) (steps : List (Step kiwiGrammar))
    (within : ∀ step ∈ steps, step.Within (Buffer.close tokens).length)
    (settled : ∀ report ∈ (kiwiParser true tokens).reports steps, report.answer.Settled) :
    (∀ done, done <+: steps ->
      let parser := (kiwiParser true tokens).afterSteps done
      let remembered := fun rule : KiwiRule =>
        parser.state.memo.marks rule.name (Buffer.close tokens).length
      parser.memoSize = parser.profile.memoMisses ∧
      (∀ (rule : KiwiRule) mark,
        mark ∈ remembered rule ↔ parser.state.memo.find? rule.name mark ≠ none) ∧
      (∀ rule : KiwiRule, rule.mode = .memoized ->
        parser.profile.invocationsOf rule.name = (remembered rule).length ∧
          parser.profile.invocationsOf rule.name ≤ (Buffer.close tokens).length + 1) ∧
      parser.profile.invocationsOf KiwiRule.userType.name =
        parser.profile.growths + (remembered .userType).length) ∧
    ∀ rule : KiwiRule, rule.mode = .memoized -> ∀ mark,
      (parseReport true tokens).events.count (.entered rule.name mark) ≤ 1 := by
  constructor
  · rintro done ⟨rest, rfl⟩
    have withinDone := (List.forall_mem_append.1 within).1
    rw [Parser.reports_append] at settled
    exact accounts_of_ledger (kiwi_ledger withinDone (List.forall_mem_append.1 settled).1)
  · intro rule memoized mark
    have once := parse_enteredOnce tokens rule memoized mark
    unfold parseReport
    generalize (kiwiParser true tokens).parseWith (KiwiGrammar.sub .start) = ended at once ⊢
    rwa [State.count_entries, ← List.count_reverse] at once

/-- A dotted type is read, and grows as it is. -/
theorem kiwi_accounting_dotted :
    let tokens := [Token.nameAt 0 0 "a", .placed .dot "." 0 1, .nameAt 0 2 "b"]
    let steps : List (Step kiwiGrammar) := [.reset 0, .evaluate .userType]
    let parser := (kiwiParser true tokens).afterSteps steps
    (∀ step ∈ steps, step.Within (Buffer.close tokens).length) ∧
      (∀ report ∈ (kiwiParser true tokens).reports steps, report.answer.Settled) ∧
      parser.mark = 3 ∧ parser.memoSize = parser.profile.memoMisses ∧
      parser.profile.invocationsOf "simpleIdentifier" ≤ 5 ∧
      parser.profile.invocationsOf "userType" = parser.profile.growths +
        (parser.state.memo.marks "userType" (Buffer.close tokens).length).length := by
  intro tokens steps parser
  have within : ∀ step ∈ steps, step.Within (Buffer.close tokens).length :=
    List.forall_mem_cons.2 ⟨Nat.zero_le _, List.forall_mem_singleton.2 trivial⟩
  have located : ∀ token ∈ tokens, token.span.isLocated = true := by decide
  have dotted : Dotted ([Token.nameAt 0 0 "a"] ++ [Token.nameAt 0 2 "b"])
      ([Token.nameAt 0 0 "a"] ++ [Token.placed .dot "." 0 1, Token.nameAt 0 2 "b"]) :=
    .more (.one ⟨rfl, by decide⟩) ⟨by decide, rfl⟩ ⟨rfl, by decide⟩
  have noDot : (Terminal.operator ".").NotNext [Token.endMarkerAt 0 3] :=
    Terminal.notNext_cons fun isDot => absurd isDot.2 (by decide)
  obtain ⟨type, ended, -⟩ : ∃ type, endingAt true tokens 0 .userType = (.success type, 3) ∧ _ :=
    endingAt_of_reads true (Nat.zero_le _) rfl
      (userType_reads dotted.derives_userType located noDot)
  have settled : ∀ report ∈ (kiwiParser true tokens).reports steps, report.answer.Settled := by
    refine List.forall_mem_cons.2 ⟨trivial, List.forall_mem_singleton.2 ?_⟩
    have settles : (Answer.ended KiwiRule.userType (endingAt true tokens 0 .userType).1 :
        Answer kiwiGrammar).Settled := by
      rw [ended]
      trivial
    exact settles
  obtain ⟨size, -, once, growing⟩ :=
    (kiwi_accounting tokens steps within settled).1 steps List.prefix_rfl
  exact ⟨within, settled, congrArg Prod.snd ended, size, (once .simpleIdentifier rfl).2, growing⟩

end KiwiFront
