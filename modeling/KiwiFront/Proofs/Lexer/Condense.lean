import KiwiFront.Lexer.Condense
import Mathlib

/-!
# Condensing

A token is dropped for what it is and joined for what stands right behind it. So condensing works
on the parts of a sequence apart wherever no sigil meets a name, and without joining it is a mere
filter.
-/

namespace KiwiFront

namespace Token

variable {token next : Token}

/-- A sigil is a dollar sign that no lexical rule knows. -/
theorem isSigil_iff : token.isSigil = true ↔ token.kind = .errorToken ∧ token.text = "$" := by
  simp [isSigil]

/-- A name is touched by what ends where it starts. -/
theorem touchesName_iff :
    token.touchesName next = true ↔ next.kind = .name ∧ next.start = token.stop := by
  simp [touchesName]

/-- A sigil is kept in the buffer. -/
theorem not_isDropped_of_sigil (isSigil : token.isSigil = true) : token.isDropped = false := by
  simp [isDropped, isSigil]

/-- A name that is touched is kept in the buffer. -/
theorem not_isDropped_of_touched (touches : token.touchesName next = true) :
    next.isDropped = false := by
  have isName := (touchesName_iff.1 touches).1
  simp [isDropped, TokenKind.isTrivia, isName]

end Token

/-- No sigil at the end of some tokens meets a name at the beginning of others. -/
def Apart (tokens later : List Token) : Prop :=
  ∀ last ∈ tokens.getLast?, ∀ next ∈ later.head?, last.isSigil = true ->
    last.touchesName next = false

/-- The end of a list is the end of its tail. -/
theorem Apart.tail {token : Token} {rest later : List Token} (apart : Apart (token :: rest) later) :
    Apart rest later := by
  intro last isLast
  refine apart last ?_
  cases rest with
  | nil => cases isLast
  | cons => exact isLast

section Condensing

variable {joinNames : Bool} {token next sigil name : Token} {rest tokens later : List Token}

/-- Trivia leaves no trace. -/
theorem condense_dropped (dropped : token.isDropped = true) :
    condense joinNames (token :: rest) = condense joinNames rest := by
  cases rest <;> simp [condense, dropped]

/-- A token that joins nothing is kept as it is. -/
theorem condense_kept (kept : token.isDropped = false)
    (apart : ∀ next ∈ rest.head?, joinNames = true -> token.isSigil = true ->
      token.touchesName next = false) :
    condense joinNames (token :: rest) = token :: condense joinNames rest := by
  cases rest with
  | nil => simp [condense, kept]
  | cons next rest =>
      have apartHere := apart next rfl
      simp_all [condense]

/-- Without joining, a token is kept or dropped whatever comes next. -/
theorem condense_of_kept (kept : token.isDropped = false) (rest : List Token) :
    condense false (token :: rest) = token :: condense false rest :=
  condense_kept kept fun _ _ => nofun

/-- A sigil goes into the name that it touches. -/
theorem condense_sigil (isSigil : sigil.isSigil = true)
    (touches : sigil.touchesName name = true) :
    condense true (sigil :: name :: rest) = sigil.joinName name :: condense true rest := by
  simp [condense, Token.not_isDropped_of_sigil isSigil, isSigil, touches]

/-- Tokens that are neither dropped nor sigils stay as they are. -/
theorem condense_of_plain
    (plain : ∀ token ∈ tokens, token.isDropped = false ∧ token.isSigil = false) :
    condense joinNames tokens = tokens := by
  induction tokens with
  | nil => rfl
  | cons token rest inductionHypothesis =>
      rw [List.forall_mem_cons] at plain
      have noSigil : ∀ next ∈ rest.head?, joinNames = true -> token.isSigil = true ->
          token.touchesName next = false := by
        intro _ _ _ isSigil
        simp [plain.1.2] at isSigil
      rw [condense_kept plain.1.1 noSigil, inductionHypothesis plain.2]

/-- Without joining, condensing is a filter. -/
theorem condense_false (tokens : List Token) :
    condense false tokens = tokens.filter (!·.isDropped) := by
  induction tokens with
  | nil => rfl
  | cons token rest inductionHypothesis =>
      cases dropped : token.isDropped with
      | true => simp [condense_dropped dropped, dropped, inductionHypothesis]
      | false => simp [condense_of_kept dropped, dropped, inductionHypothesis]

/-- What condensing does with the first tokens: one is dropped, or two are joined, or one is kept
for itself. -/
@[elab_as_elim]
theorem condense_induction (joinNames : Bool) {motive : List Token -> Prop} (nil : motive [])
    (dropped : ∀ token rest, token.isDropped = true -> motive rest -> motive (token :: rest))
    (joined : ∀ sigil name rest, joinNames = true -> sigil.isSigil = true ->
      sigil.touchesName name = true -> motive rest -> motive (sigil :: name :: rest))
    (kept : ∀ token rest, token.isDropped = false ->
      (∀ next ∈ rest.head?, joinNames = true -> token.isSigil = true ->
        token.touchesName next = false) -> motive rest -> motive (token :: rest))
    (tokens : List Token) : motive tokens := by
  fun_induction condense joinNames tokens with
  | case1 => exact nil
  | case2 token isDropped => exact dropped token [] isDropped nil
  | case3 token isKept =>
      refine kept token [] (Bool.eq_false_of_not_eq_true isKept) (fun next isNext => ?_) nil
      cases isNext
  | case4 token next rest isDropped inductionHypothesis =>
      exact dropped token (next :: rest) isDropped inductionHypothesis
  | case5 token next rest isKept touching inductionHypothesis =>
      simp only [Bool.and_eq_true] at touching
      exact joined token next rest touching.1.1 touching.1.2 touching.2 inductionHypothesis
  | case6 token next rest isKept notJoined inductionHypothesis =>
      refine kept token (next :: rest) (Bool.eq_false_of_not_eq_true isKept) ?_ inductionHypothesis
      rintro _ ⟨⟩ rfl isSigil
      simpa [isSigil] using notJoined

/-- What stands before and behind a place where no sigil meets a name is condensed apart. -/
theorem condense_append (apart : Apart tokens later) :
    condense joinNames (tokens ++ later) =
      condense joinNames tokens ++ condense joinNames later := by
  induction tokens using condense_induction joinNames with
  | nil => rfl
  | dropped token rest isDropped inductionHypothesis =>
      rw [List.cons_append, condense_dropped isDropped, condense_dropped isDropped]
      exact inductionHypothesis apart.tail
  | joined sigil name rest isOn isSigil touches inductionHypothesis =>
      subst isOn
      rw [List.cons_append, List.cons_append, condense_sigil isSigil touches,
        condense_sigil isSigil touches, inductionHypothesis apart.tail.tail, List.cons_append]
  | kept token rest isKept notJoined inductionHypothesis =>
      rw [List.cons_append, condense_kept isKept notJoined, condense_kept isKept,
        inductionHypothesis apart.tail, List.cons_append]
      cases rest with
      | nil => exact fun next isNext _ => apart token rfl next isNext
      | cons => exact notJoined

/-- Only what is dropped altogether condenses to nothing. -/
theorem condense_eq_nil_iff :
    condense joinNames tokens = [] ↔ ∀ token ∈ tokens, token.isDropped = true := by
  induction tokens using condense_induction joinNames with
  | nil => simp [condense]
  | dropped token rest isDropped inductionHypothesis =>
      rw [condense_dropped isDropped, inductionHypothesis, List.forall_mem_cons]
      simp [isDropped]
  | joined sigil name rest isOn isSigil touches =>
      subst isOn
      simp [condense_sigil isSigil touches, Token.not_isDropped_of_sigil isSigil]
  | kept token rest isKept notJoined => simp [condense_kept isKept notJoined, isKept]

/-- What holds of kept tokens and of joined ones holds of all that reach the parser. -/
theorem forall_mem_condense {given holds : Token -> Prop}
    (kept : ∀ token, given token -> token.isDropped = false -> holds token)
    (joined : ∀ sigil name, given sigil -> given name -> sigil.isSigil = true ->
      holds (sigil.joinName name))
    {tokens : List Token} (allGiven : ∀ token ∈ tokens, given token) :
    ∀ token ∈ condense joinNames tokens, holds token := by
  induction tokens using condense_induction joinNames with
  | nil => exact fun _ member => (List.not_mem_nil member).elim
  | dropped token rest isDropped inductionHypothesis =>
      rw [condense_dropped isDropped]
      exact inductionHypothesis (List.forall_mem_cons.1 allGiven).2
  | joined sigil name rest isOn isSigil touches inductionHypothesis =>
      subst isOn
      rw [List.forall_mem_cons, List.forall_mem_cons] at allGiven
      rw [condense_sigil isSigil touches]
      exact List.forall_mem_cons.2
        ⟨joined sigil name allGiven.1 allGiven.2.1 isSigil, inductionHypothesis allGiven.2.2⟩
  | kept token rest isKept notJoined inductionHypothesis =>
      rw [List.forall_mem_cons] at allGiven
      rw [condense_kept isKept notJoined]
      exact List.forall_mem_cons.2
        ⟨kept token allGiven.1 isKept, inductionHypothesis allGiven.2⟩

/-- An end marker is neither dropped nor joined. -/
theorem condense_concat (tokens : List Token) {marker : Token}
    (isMarker : marker.kind = .endMarker) :
    condense joinNames (tokens ++ [marker]) = condense joinNames tokens ++ [marker] := by
  have kept : marker.isDropped = false := by
    simp [Token.isDropped, TokenKind.isTrivia, isMarker]
  rw [condense_append]
  · simp [condense, kept]
  · rintro last - _ ⟨⟩ -
    simp [Token.touchesName, isMarker]

end Condensing

end KiwiFront
