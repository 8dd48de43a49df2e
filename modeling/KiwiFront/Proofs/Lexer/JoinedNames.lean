import KiwiFront.Proofs.Lexer.Condense
import KiwiFront.Proofs.Lexer.Coverage

/-!
# Joined names

Joining loses nothing: a sigil is one column wide, so that a joined name shows where the name
begins. It also depends on nothing but the tokens that are left. A name that stands right behind a
sigil does so in the text, too, since whatever is dropped takes up room.
-/

namespace KiwiFront

/-- Tokens stand one behind the other, and those that are dropped are not empty. -/
structure Spaced (tokens : List Token) : Prop where
  ordered : tokens.Pairwise fun token next => token.stop ≤ next.start
  wide : ∀ token ∈ tokens, token.isDropped = true -> token.start < token.stop

namespace Spaced

variable {token next : Token} {rest : List Token}

theorem tail (spaced : Spaced (token :: rest)) : Spaced rest :=
  ⟨spaced.ordered.of_cons, fun later member => spaced.wide later (List.mem_cons_of_mem _ member)⟩

/-- No name behind a dropped token touches what stands before that token. -/
theorem apart (spaced : Spaced (token :: next :: rest)) (isDropped : next.isDropped = true) :
    ∀ later ∈ rest, token.touchesName later = false := by
  intro later member
  have before : token.stop ≤ next.start := List.rel_of_pairwise_cons spaced.ordered (by simp)
  have behind : next.stop ≤ later.start := List.rel_of_pairwise_cons spaced.tail.ordered member
  have wide : next.start < next.stop := spaced.wide next (by simp) isDropped
  rw [Bool.eq_false_iff]
  intro touches
  rw [(Token.touchesName_iff.1 touches).2] at behind
  rw [Position.le_iff] at before behind
  rw [Position.lt_iff] at wide
  omega

/-- If a sigil does not touch what comes next, it touches nothing that is left behind it either. -/
theorem apart_condense (spaced : Spaced (token :: rest))
    (notJoined : ∀ next ∈ rest.head?, token.touchesName next = false) :
    ∀ later ∈ (condense false rest).head?, token.touchesName later = false := by
  intro later isLater
  cases rest with
  | nil => cases isLater
  | cons next rest =>
      cases isDropped : next.isDropped with
      | true =>
          rw [condense_dropped isDropped, condense_false] at isLater
          exact spaced.apart isDropped later
            (List.mem_of_mem_filter (List.mem_of_mem_head? isLater))
      | false =>
          rw [condense_of_kept isDropped] at isLater
          exact notJoined later isLater

end Spaced

/-- A sigil is one column wide. -/
def Token.IsNarrow (token : Token) : Prop :=
  token.isSigil = true -> token.stop = ⟨token.start.row, token.start.column + 1⟩

section Joining

variable {tokens rest : List Token} {next : Token}

/-- Splitting the names that were joined gives back the tokens as they are without joining. -/
theorem condense_splitName (plain : ∀ token ∈ tokens, token.kind ≠ .sigilName)
    (narrow : ∀ token ∈ tokens, token.IsNarrow) :
    (condense true tokens).flatMap Token.splitName = condense false tokens := by
  induction tokens using condense_induction true with
  | nil => rfl
  | dropped token rest isDropped inductionHypothesis =>
      rw [List.forall_mem_cons] at plain narrow
      rw [condense_dropped isDropped, condense_dropped isDropped,
        inductionHypothesis plain.2 narrow.2]
  | joined sigil name rest _ isSigil touches inductionHypothesis =>
      rw [List.forall_mem_cons, List.forall_mem_cons] at plain narrow
      rw [condense_sigil isSigil touches, List.flatMap_cons,
        inductionHypothesis plain.2.2 narrow.2.2,
        Token.splitName_joinName isSigil touches (narrow.1 isSigil),
        condense_of_kept (Token.not_isDropped_of_sigil isSigil),
        condense_of_kept (Token.not_isDropped_of_touched touches)]
      rfl
  | kept token rest isKept notJoined inductionHypothesis =>
      rw [List.forall_mem_cons] at plain narrow
      have unsplit : token.splitName = [token] := if_neg plain.1
      rw [condense_kept isKept notJoined, List.flatMap_cons,
        inductionHypothesis plain.2 narrow.2, unsplit, condense_of_kept isKept]
      rfl

/-- Names are joined to their sigils alike before and after the rest is dropped. -/
theorem condense_true_false (spaced : Spaced tokens) :
    condense true (condense false tokens) = condense true tokens := by
  induction tokens using condense_induction true with
  | nil => rfl
  | dropped token rest isDropped inductionHypothesis =>
      rw [condense_dropped isDropped, condense_dropped isDropped, inductionHypothesis spaced.tail]
  | joined sigil name rest _ isSigil touches inductionHypothesis =>
      rw [condense_of_kept (Token.not_isDropped_of_sigil isSigil),
        condense_of_kept (Token.not_isDropped_of_touched touches), condense_sigil isSigil touches,
        condense_sigil isSigil touches, inductionHypothesis spaced.tail.tail]
  | kept token rest isKept notJoined inductionHypothesis =>
      rw [condense_of_kept isKept, condense_kept isKept, condense_kept isKept notJoined,
        inductionHypothesis spaced.tail]
      intro later isLater _ isSigil
      exact spaced.apart_condense (fun next isNext => notJoined next isNext rfl isSigil) later
        isLater

theorem head_condense (isKept : next.isDropped = false) :
    (condense true (next :: rest)).head? = some next ∨
      ∃ name, (condense true (next :: rest)).head? = some (next.joinName name) := by
  cases rest with
  | nil => exact .inl (by simp [condense, isKept])
  | cons name rest =>
      rw [condense, if_neg (by simp [isKept])]
      split
      · exact .inr ⟨name, rfl⟩
      · exact .inl rfl

/-- What is joined already is not joined again. -/
theorem condense_condense (allKept : ∀ token ∈ tokens, token.isDropped = false) :
    condense true (condense true tokens) = condense true tokens := by
  induction tokens using condense_induction true with
  | nil => rfl
  | dropped token rest isDropped =>
      exact absurd isDropped (Bool.eq_false_iff.1 (allKept token List.mem_cons_self))
  | joined sigil name rest _ isSigil touches inductionHypothesis =>
      rw [List.forall_mem_cons, List.forall_mem_cons] at allKept
      have isKept : (sigil.joinName name).isDropped = false := rfl
      have noSigil : (sigil.joinName name).isSigil = false := rfl
      rw [condense_sigil isSigil touches, condense_kept isKept, inductionHypothesis allKept.2.2]
      simp [noSigil]
  | kept token rest isKept notJoined inductionHypothesis =>
      rw [List.forall_mem_cons] at allKept
      rw [condense_kept isKept notJoined, condense_kept isKept, inductionHypothesis allKept.2]
      intro first isFirst isOn isSigil
      cases rest with
      | nil => cases isFirst
      | cons next rest =>
          -- What begins the rest is what began it before, or a joined name, which is no name.
          rcases head_condense (allKept.2 next List.mem_cons_self) with here | ⟨name, joined⟩
          · cases here.symm.trans isFirst
            exact notJoined _ rfl isOn isSigil
          · cases joined.symm.trans isFirst
            rfl

end Joining

/-- Each token that covers a text with others stands somewhere in it. -/
theorem Scan.Covers.stands {front text : List Char} {tokens : List Token}
    (covers : Scan.Covers front text tokens) :
    ∀ token ∈ tokens, ∃ before, token.StandsBehind before := by
  induction covers with
  | nil => exact fun _ member => (List.not_mem_nil member).elim
  | skip _ _ inductionHypothesis => exact inductionHypothesis
  | token _ stands _ inductionHypothesis =>
      exact List.forall_mem_cons.2 ⟨⟨_, stands⟩, inductionHypothesis⟩

theorem Token.StandsBehind.isNarrow {token : Token} {front : List Char}
    (stands : token.StandsBehind front) : token.IsNarrow := by
  intro isSigil
  obtain ⟨isError, isDollar⟩ := Token.isSigil_iff.1 isSigil
  rw [stands.stop (by simp [isError, TokenKind.isLineBreak]), isDollar]
  rfl

/-- Behind the encoding, no token that is dropped is empty, and sigils are one column wide. -/
theorem scan_spaced (source : String) :
    ∃ tokens, scan source = Scan.encodingToken :: tokens ∧ Spaced tokens ∧
      ∀ token ∈ tokens, token.IsNarrow := by
  obtain ⟨tokens, closing, scanned, closes, covers⟩ := scan_stands source
  let stop := Position.behind source.toList
  have kept : ∀ token ∈ closing ++ [⟨.endMarker, "", stop, stop⟩],
      token.isDropped = false ∧ token.isSigil = false := by
    rcases closes with rfl | rfl <;> simp [Token.isDropped, Token.isSigil, TokenKind.isTrivia]
  obtain ⟨-, ordered, -⟩ := scan_ordered source
  rw [scanned, List.append_assoc, List.cons_append] at ordered
  refine ⟨tokens ++ (closing ++ [⟨.endMarker, "", stop, stop⟩]), ?_, ⟨ordered.of_cons, ?_⟩, ?_⟩
  · rw [scanned, List.append_assoc, List.cons_append]
  · refine List.forall_mem_append.2 ⟨fun token member _ => (covers.within token member).2.1,
      fun token member isDropped => ?_⟩
    cases (kept token member).1.symm.trans isDropped
  · refine List.forall_mem_append.2 ⟨fun token member => ?_, fun token member isSigil => ?_⟩
    · obtain ⟨before, stands⟩ := covers.stands token member
      exact stands.isNarrow
    · cases (kept token member).2.symm.trans isSigil

end KiwiFront
