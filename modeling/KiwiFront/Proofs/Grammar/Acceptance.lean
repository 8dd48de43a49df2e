import KiwiFront.Proofs.Grammar.Completeness
import KiwiFront.Proofs.Grammar.Sessions
import KiwiFront.Proofs.Peg.Soundness

/-!
# The language that is accepted

A parse succeeds on the tokens that the grammar generates, and ends with an error on all
others. What it reads is derived, whatever the order of alternatives and the commitments of
the rules rule out; and they rule out nothing that is derived, since what the rules read is
found again at every bound that lets the parse end.
-/

namespace KiwiFront

open Peg

namespace Peg.Buffer

variable {tokens : List Token}

/-- Only the last token may be an end marker. -/
def EndsOnce (tokens : List Token) : Prop :=
  ∀ token ∈ tokens.dropLast, token.kind ≠ .endMarker

instance (tokens : List Token) : Decidable (EndsOnce tokens) :=
  inferInstanceAs (Decidable (∀ token ∈ tokens.dropLast, token.kind ≠ .endMarker))

/-- The marker that closes tokens stands where the last one stops. -/
theorem closingMarker_located (located : ∀ token ∈ tokens, token.span.isLocated = true) :
    (closingMarker tokens).span.isLocated = true := by
  unfold closingMarker
  cases isLast : tokens.getLast? with
  | none => rfl
  | some last =>
      have lastLocated := located last (List.mem_of_getLast? isLast)
      have stopLocated := (Span.isLocated_iff.1 lastLocated).2
      exact Span.isLocated_iff.2 ⟨stopLocated, stopLocated⟩

theorem closingMarker_proper (proper : ∀ token ∈ tokens, token.Proper) :
    (closingMarker tokens).Proper := by
  have noText : ∀ entry ∈ KiwiGrammar.operators, "" ≠ entry.1 := by decide
  have located := closingMarker_located fun token member => (proper token member).located
  exact ⟨located, fun entry listed sameText => absurd sameText (noText entry listed)⟩

/-- What holds of tokens and of the marker that closes them holds of all closed tokens. -/
theorem forall_mem_close {holds : Token -> Prop} (given : ∀ token ∈ tokens, holds token)
    (marker : holds (closingMarker tokens)) : ∀ token ∈ close tokens, holds token := by
  unfold close
  split
  · exact given
  · exact List.forall_mem_append.2 ⟨given, List.forall_mem_singleton.2 marker⟩

theorem close_located (located : ∀ token ∈ tokens, token.span.isLocated = true) :
    ∀ token ∈ close tokens, token.span.isLocated = true :=
  forall_mem_close located (closingMarker_located located)

theorem close_proper (proper : ∀ token ∈ tokens, token.Proper) :
    ∀ token ∈ close tokens, token.Proper :=
  forall_mem_close proper (closingMarker_proper proper)

/-- Closing tokens puts no end marker before another token. -/
theorem close_endsOnce (once : EndsOnce tokens) : EndsOnce (close tokens) := by
  unfold close
  split
  · exact once
  · rename_i notClosed
    rw [EndsOnce, List.dropLast_concat]
    rcases List.eq_nil_or_concat tokens with rfl | ⟨front, last, rfl⟩
    · exact fun _ member => absurd member List.not_mem_nil
    · rw [EndsOnce, List.concat_eq_append, List.dropLast_concat] at once
      rw [List.concat_eq_append] at notClosed ⊢
      intro token member
      rcases List.mem_append.1 member with inFront | isLast
      · exact once token inFront
      · rw [List.mem_singleton.1 isLast]
        intro isMarker
        exact notClosed (by simp [isClosed, isMarker])

end Peg.Buffer

namespace KiwiGrammar

variable {tokens : List Token}

/-- Whatever a file is derived from ends with an end marker. -/
theorem endMarker_of_start (derived : kiwiGrammar.Derives keywords .start tokens) :
    ∃ marker ∈ tokens, marker.kind = .endMarker := by
  obtain ⟨_, _, rfl, _, _, _, rfl, _, _, _, rfl, _, _, _, rfl, _, marker, isEnd, rfl⟩ :=
    derives_iff.1 derived
  exact ⟨marker, by simp, isEnd⟩

/-- How the start rule is evaluated. -/
def startRun (tokens : List Token) : Run kiwiGrammar File :=
  kiwiGrammar.runRule (forgetful (.ofTokens tokens)) (kiwiBound tokens) .start

theorem startRun_ends (tokens : List Token) : (startRun tokens .initial).1 ≠ .unfinished :=
  kiwi_runRule_ends false tokens .start (kiwiParser false tokens).state rfl

theorem startRun_within (tokens : List Token) :
    (startRun tokens .initial).2.cursor ≤ (Buffer.close tokens).length := by
  have advances := kiwi_ranked.runRule_advances (forgetful (.ofTokens tokens)) (kiwiBound tokens)
    .start
  exact (advances .initial (kiwiParser_bounded false tokens)).1.cursor

/-- The tokens that the start rule reads spell the file that it succeeds with. -/
theorem startRun_spells {file : File} (succeeded : (startRun tokens .initial).1 = .success file) :
    kiwiGrammar.Spells keywords .start file
      ((Buffer.close tokens).take (startRun tokens .initial).2.cursor) := by
  have sound : (startRun tokens).Sound (forgetful (.ofTokens tokens))
      (kiwiGrammar.Spells keywords KiwiRule.start) :=
    Grammar.runRule_sound KiwiRule.name_injective jumpless _ _ _
  have justified :
      (State.initial : State kiwiGrammar).Justified (forgetful (.ofTokens tokens)) := by
    intro rule mark value stop found
    cases (MemoStore.find?_empty rule.name mark).symm.trans found
  exact ((sound .initial justified).2 file succeeded).2

/-- If the start rule comes to the last token at least, it has read all of them, as the end
marker is one of those that it reads. -/
theorem derives_of_startRun (once : Buffer.EndsOnce tokens) {file : File}
    (succeeded : (startRun tokens .initial).1 = .success file)
    (toLast : (Buffer.close tokens).length - 1 ≤ (startRun tokens .initial).2.cursor) :
    kiwiGrammar.Derives keywords .start (Buffer.close tokens) := by
  have derived := (startRun_spells succeeded).derives
  have within := startRun_within tokens
  by_cases atEnd : (startRun tokens .initial).2.cursor = (Buffer.close tokens).length
  · rw [atEnd, List.take_length] at derived
    exact derived
  · have beforeLast :
        (startRun tokens .initial).2.cursor = (Buffer.close tokens).length - 1 := by omega
    rw [beforeLast, ← List.dropLast_eq_take] at derived
    obtain ⟨marker, member, isMarker⟩ := endMarker_of_start derived
    exact absurd isMarker (Buffer.close_endsOnce once marker member)

/-- What is derived is read, as it is with some greater bound. -/
theorem startRun_of_derives (proper : ∀ token ∈ tokens, token.Proper)
    (derived : kiwiGrammar.Derives keywords .start (Buffer.close tokens)) :
    ∃ file, (startRun tokens .initial).1 = .success file ∧
      (startRun tokens .initial).2.cursor = (Buffer.close tokens).length := by
  obtain ⟨low, reads⟩ : kiwiGrammar.Reads (forgetful (.ofTokens tokens)) (sub .start)
      (Buffer.close tokens) [] fun _ => True :=
    start_reads derived (Buffer.close_proper proper)
  have before : (State.initial : State kiwiGrammar).Before (forgetful (.ofTokens tokens))
      (Buffer.close tokens ++ []) := by
    rw [List.append_nil]
    exact ⟨rfl, Nat.zero_le _, fun _ _ _ _ => MemoStore.find?_empty _ _⟩
  obtain ⟨file, reached, ran, _, after⟩ := reads low (Nat.le_refl _) .initial before
  have called : kiwiGrammar.runRule (forgetful (.ofTokens tokens)) low .start .initial =
      (.success file, reached) := ran
  have ends : (kiwiGrammar.runRule (forgetful (.ofTokens tokens)) low .start .initial).1 ≠
      .unfinished := by
    rw [called]
    exact nofun
  have same : startRun tokens .initial = (.success file, reached) :=
    (Grammar.runRule_eq_of_ends (startRun_ends tokens) ends).trans called
  rw [same]
  exact ⟨file, rfl, after.cursor_add⟩

/-- A parse that forgets plain outcomes reads a file if the tokens are derived, and ends with
an error if they are not. -/
theorem parse_forgetful (proper : ∀ token ∈ tokens, token.Proper)
    (once : Buffer.EndsOnce tokens) :
    (kiwiGrammar.Derives keywords .start (Buffer.close tokens) ->
      ∃ file, ((kiwiParser false tokens).parseWith (sub .start)).1 = .success file) ∧
    (¬ kiwiGrammar.Derives keywords .start (Buffer.close tokens) ->
      ∃ error, ((kiwiParser false tokens).parseWith (sub .start)).1 = .fatal error) := by
  have parsed : ((kiwiParser false tokens).parseWith (sub .start)).1 =
      ((startRun tokens).toEnd (forgetful (.ofTokens tokens)) .initial).1 :=
    (kiwiParser false tokens).parseWith_call KiwiRule.start
  rw [parsed]
  constructor
  · intro derived
    obtain ⟨file, succeeded, atEnd⟩ := startRun_of_derives proper derived
    have ran : startRun tokens .initial = (.success file, (startRun tokens .initial).2) :=
      Prod.ext succeeded rfl
    have toLast : (Buffer.close tokens).length - 1 ≤ (startRun tokens .initial).2.cursor := by
      omega
    have read := Run.toEnd_of_success (forgetful (.ofTokens tokens)) ran toLast
    exact ⟨file, congrArg Prod.fst read⟩
  · intro underived
    rcases Run.toEnd_success_or_fatal (forgetful (.ofTokens tokens)) (startRun_ends tokens) with
      ⟨file, succeeded, toLast⟩ | failed
    · exact absurd (derives_of_startRun once succeeded toLast) underived
    · exact failed

end KiwiGrammar

/-- It does not matter for a parse whether plain outcomes are remembered. -/
theorem parse_packrat (packrat : Bool) (tokens : List Token) :
    ((kiwiParser packrat tokens).parseWith (KiwiGrammar.sub .start)).1 =
      ((kiwiParser false tokens).parseWith (KiwiGrammar.sub .start)).1 := by
  cases packrat with
  | false => rfl
  | true =>
      exact (kiwiParser_twin tokens).parseWith kiwi_layered (kiwi_runRule_ends false tokens .start)

theorem parseTokens_eq (packrat : Bool) (tokens : List Token) :
    parseTokens packrat tokens =
      parseResult ((kiwiParser packrat tokens).parseWith (KiwiGrammar.sub .start)).1 := rfl

/-- Only a success is parsed to a value. -/
theorem success_of_parseResult {Result : Type} {outcome : Outcome Result} {value : Result}
    (parsed : parseResult outcome = .ok value) : outcome = .success value := by
  cases outcome with
  | success read => rw [Except.ok.inj parsed]
  | failure | fatal | unfinished => cases parsed

/-- A file that is parsed is spelled by the first tokens of the buffer. -/
theorem spells_of_parseTokens {packrat : Bool} {tokens : List Token} {file : File}
    (parsed : parseTokens packrat tokens = .ok file) :
    ∃ read rest, Buffer.close tokens = read ++ rest ∧
      kiwiGrammar.Spells KiwiGrammar.keywords .start file read := by
  rw [parseTokens_eq, parse_packrat] at parsed
  have succeeded : ((KiwiGrammar.startRun tokens).toEnd
      (KiwiGrammar.forgetful (.ofTokens tokens)) .initial).1 = .success file :=
    success_of_parseResult parsed
  have spelled := KiwiGrammar.startRun_spells (Run.success_of_toEnd succeeded).1
  exact ⟨_, _, (List.take_append_drop _ _).symm, spelled⟩

/-- What the language contains is parsed. -/
theorem exists_file_of_generates (packrat : Bool) {tokens : List Token}
    (proper : ∀ token ∈ tokens, token.Proper) (once : Buffer.EndsOnce tokens)
    (generated : KiwiRule.start.Generates (Buffer.close tokens)) :
    ∃ file, parseTokens packrat tokens = .ok file := by
  obtain ⟨file, succeeded⟩ :=
    (KiwiGrammar.parse_forgetful proper once).1 (KiwiRule.generates_iff.1 generated)
  rw [parseTokens_eq, parse_packrat, succeeded]
  exact ⟨file, rfl⟩

/-- Tokens are parsed into a file exactly if, closed by an end marker, the language contains
them; otherwise the parse ends with an error. They have to have places, the texts of operators
on operators alone, and an end marker in the last place at most. -/
theorem parseTokens_ok_iff (packrat : Bool) (tokens : List Token)
    (proper : ∀ token ∈ tokens, token.Proper) (once : Buffer.EndsOnce tokens) :
    ((∃ file, parseTokens packrat tokens = .ok file) ↔
      KiwiRule.start.Generates (Buffer.close tokens)) ∧
    (¬ KiwiRule.start.Generates (Buffer.close tokens) ->
      ∃ error, ((kiwiParser packrat tokens).parseWith (KiwiGrammar.sub .start)).1 =
          .fatal error ∧
        parseTokens packrat tokens = .error error) := by
  obtain ⟨accepts, rejects⟩ := KiwiGrammar.parse_forgetful proper once
  rw [← parse_packrat packrat] at accepts rejects
  rw [← KiwiRule.generates_iff] at accepts rejects
  rw [parseTokens_eq]
  refine ⟨⟨?_, ?_⟩, ?_⟩
  · rintro ⟨file, parsed⟩
    apply Classical.byContradiction
    intro notGenerated
    obtain ⟨error, failed⟩ := rejects notGenerated
    rw [failed] at parsed
    cases parsed
  · intro generated
    obtain ⟨file, succeeded⟩ := accepts generated
    exact ⟨file, by rw [succeeded]; rfl⟩
  · intro notGenerated
    obtain ⟨error, failed⟩ := rejects notGenerated
    exact ⟨error, failed, by rw [failed]; rfl⟩

/-- A package header is a file. -/
theorem parseTokens_ok_of_package :
    let tokens := [Token.nameAt 1 1 "package", .nameAt 1 9 "a", .newlineAt 1 10]
    (∀ token ∈ tokens, token.Proper) ∧ Buffer.EndsOnce tokens ∧
      ∃ file, parseTokens true tokens = .ok file := by
  intro tokens
  have proper : ∀ token ∈ tokens, token.Proper := by decide
  have once : Buffer.EndsOnce tokens := by decide
  have name : (Production.rule .identifier).Yields ([Token.nameAt 1 9 "a"] ++ []) :=
    .rule (.both (.rule (.terminal ⟨rfl, by decide⟩)) .none)
  have header : (Production.rule .packageHeader).Yields
      ([Token.nameAt 1 1 "package"] ++ ([Token.nameAt 1 9 "a"] ++ [] ++ [Token.newlineAt 1 10])) :=
    .rule (.both (.terminal ⟨rfl, rfl⟩) (.both name (.rule (.first (.terminal rfl)))))
  have rest : (Production.inOrder (.rule .importList) [.rule .topLevelObjectList,
      .optional (.rule .semi), .terminal .endMarker]).Yields
        ([] ++ ([] ++ ([] ++ [Token.endMarkerAt 1 11]))) :=
    .both (.rule .none) (.both (.rule .none) (.both .absent (.terminal rfl)))
  have generated : KiwiRule.start.Generates (Buffer.close tokens) := .rule (.both header rest)
  exact ⟨proper, once, (parseTokens_ok_iff true tokens proper once).1.2 generated⟩

end KiwiFront
