import KiwiFront.Proofs.Grammar.Breakage
import KiwiFront.Proofs.Lexer.Buffered

/-!
# Viable prefixes

Where a forced match is missing in a source text, what stands before it is the beginning of
some file: no token before the one that is reported has to change for the text to be parsed.
-/

namespace KiwiFront

open Peg

variable {packrat : Bool} {tokens : List Token} {expected : String} {position : Position}
  {mark : Nat}

/-- A file ends with its end marker. -/
theorem Peg.Buffer.close_of_start
    (derived : kiwiGrammar.Derives KiwiGrammar.keywords .start tokens) :
    Buffer.close tokens = tokens := by
  obtain ⟨_, _, rfl, _, _, _, rfl, _, _, _, rfl, _, _, _, rfl, _, marker, isMarker, rfl⟩ :=
    KiwiGrammar.derives_iff.1 derived
  have isMarker : marker.kind = .endMarker := isMarker
  simp [close, isClosed, isMarker]

/-- Where a forced match is missing in proper tokens, what has been read before it goes on to
a file in some other way. -/
theorem exists_completion (proper : ∀ token ∈ tokens, token.Proper)
    (failed : parseTokens packrat tokens = .error (.forced expected position mark)) :
    ∃ completion, (∀ token ∈ completion, token.Proper) ∧
      ∀ packrat, ∃ file,
        parseTokens packrat ((Buffer.close tokens).take mark ++ completion) = .ok file := by
  cases KiwiGrammar.foundIn_of_parseTokens failed with
  | missing _ broken =>
      obtain ⟨completion, _, completionProper, derived⟩ := KiwiGrammar.completes_of_breaks broken
      have readProper : ∀ token ∈ (Buffer.close tokens).take mark, token.Proper :=
        fun token member => Buffer.close_proper proper token (List.mem_of_mem_take member)
      refine ⟨completion, completionProper, fun packrat => exists_file_of_generates packrat
        (List.forall_mem_append.2 ⟨readProper, completionProper⟩)
        (KiwiGrammar.endsOnce_of_start derived) ?_⟩
      rw [Buffer.close_of_start derived]
      exact KiwiRule.generates_iff.2 derived

end KiwiFront
