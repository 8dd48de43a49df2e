import KiwiFront.Tree.Serialized
import Mathlib.Data.List.Basic

/-!
# Serialized elements tell all

Nothing of an element is lost when it is serialized: no two elements have the same datum. The
key in front names the type of an element, and so tells suffixes and types apart that are not
tagged themselves; nothing that is there is serialized like what is missing.
-/

namespace KiwiFront

/-- No two kinds have the same name. -/
theorem TokenKind.label_injective : Function.Injective label := by
  have named : ∀ kind, ofLabel? (label kind) = some kind := by
    intro kind
    cases kind <;> decide +kernel
  intro left right same
  have found := named left
  rw [same, named right] at found
  exact (Option.some.inj found).symm

/-- The two coordinates of a position can be read back. -/
theorem Position.toDatum_injective : Function.Injective toDatum := by
  rintro ⟨row, column⟩ ⟨otherRow, otherColumn⟩ same
  simp only [toDatum, Datum.object.injEq, List.cons.injEq, Prod.mk.injEq,
    Datum.integer.injEq, true_and, and_true] at same
  rw [same.1, same.2]

/-- The two ends of a span can be read back. -/
theorem Span.toDatum_injective : Function.Injective toDatum := by
  rintro ⟨start, stop⟩ ⟨otherStart, otherStop⟩ same
  simp only [toDatum, Datum.object.injEq, List.cons.injEq, Prod.mk.injEq, true_and,
    and_true] at same
  rw [Position.toDatum_injective same.1, Position.toDatum_injective same.2]

/-- The kind, the text and the span of a token can be read back. -/
theorem Token.toDatum_injective : Function.Injective toDatum := by
  rintro ⟨kind, text, start, stop⟩ ⟨otherKind, otherText, otherStart, otherStop⟩ same
  simp only [toDatum, Datum.object.injEq, List.cons.injEq, Prod.mk.injEq, Datum.text.injEq,
    true_and, and_true] at same
  obtain ⟨kinds, texts, starts, stops⟩ := same
  rw [TokenKind.label_injective kinds, texts, Position.toDatum_injective starts,
    Position.toDatum_injective stops]

/-- The leaf form of a token carries the same fields beside its tag. -/
theorem Token.toLeafDatum_injective : Function.Injective toLeafDatum := by
  intro left right same
  simp only [toLeafDatum, Datum.object.injEq, List.cons.injEq, Prod.mk.injEq, true_and,
    and_true] at same
  exact toDatum_injective same

/-- The datum of an element tells its type, its parts and its span. -/
theorem elementDatum_inj {type other : String} {parts others : List (String × Datum)}
    {span otherSpan : Span} :
    elementDatum type parts span = elementDatum other others otherSpan ↔
      type = other ∧ parts = others ∧ span = otherSpan := by
  constructor
  · intro same
    simp only [elementDatum, Datum.object.injEq, List.cons_append, List.cons.injEq,
      Prod.mk.injEq, Datum.text.injEq, true_and] at same
    obtain ⟨types, rows⟩ := same
    obtain ⟨partsSame, spans⟩ := List.append_inj' rows rfl
    simp only [List.cons.injEq, Prod.mk.injEq, true_and, and_true] at spans
    exact ⟨types, partsSame, Span.toDatum_injective spans⟩
  · rintro ⟨rfl, rfl, rfl⟩
    rfl

/-- A tagged record is never null, so an optional child can tell it from an absent one. -/
theorem elementDatum_ne_null (type : String) (parts : List (String × Datum)) (span : Span) :
    elementDatum type parts span ≠ .null := by
  intro same
  cases same

section Parts

variable {Item : Type} {toDatum : Item -> Datum}

/-- Of something that may be missing, the datum tells whether it is there, unless what is there
may be written as nothing. -/
theorem optionalDatum_injective (injective : Function.Injective toDatum)
    (present : ∀ item, toDatum item ≠ .null) : Function.Injective (optionalDatum toDatum) := by
  intro left right same
  cases left with
  | none =>
      cases right with
      | none => rfl
      | some item => exact absurd same.symm (present item)
  | some item =>
      cases right with
      | none => exact absurd same (present item)
      | some other => exact congrArg some (injective same)

/-- A list can be read back when its items can. -/
theorem listDatum_injective (injective : Function.Injective toDatum) :
    Function.Injective (listDatum toDatum) := by
  intro left right same
  exact List.map_injective_iff.2 injective (Datum.list.inj same)

end Parts

/-- The segments of a dotted name can be read back. -/
theorem Identifier.toDatum_injective : Function.Injective toDatum := by
  rintro ⟨segments, span⟩ ⟨otherSegments, otherSpan⟩ same
  obtain ⟨-, parts, spans⟩ := elementDatum_inj.1 same
  simp only [List.cons.injEq, Prod.mk.injEq, true_and, and_true] at parts spans
  rw [listDatum_injective Token.toLeafDatum_injective parts, spans]

/-- The parts of a package header can be read back. -/
theorem PackageHeader.toDatum_injective : Function.Injective toDatum := by
  rintro ⟨keyword, identifier, terminator, span⟩ ⟨otherKeyword, other, otherTerminator, otherSpan⟩
    same
  obtain ⟨-, parts, spans⟩ := elementDatum_inj.1 same
  simp only [List.cons.injEq, Prod.mk.injEq, true_and, and_true] at parts spans
  obtain ⟨keywords, identifiers, terminators⟩ := parts
  rw [Token.toLeafDatum_injective keywords, Identifier.toDatum_injective identifiers,
    Token.toLeafDatum_injective terminators, spans]

/-- The parts of an import alias can be read back. -/
theorem ImportAlias.toDatum_injective : Function.Injective toDatum := by
  rintro ⟨keyword, identifier, span⟩ ⟨otherKeyword, other, otherSpan⟩ same
  obtain ⟨-, parts, spans⟩ := elementDatum_inj.1 same
  simp only [List.cons.injEq, Prod.mk.injEq, true_and, and_true] at parts spans
  rw [Token.toLeafDatum_injective parts.1, Token.toLeafDatum_injective parts.2, spans]

/-- The parts of an import wildcard can be read back. -/
theorem ImportWildcard.toDatum_injective : Function.Injective toDatum := by
  rintro ⟨dot, star, span⟩ ⟨otherDot, otherStar, otherSpan⟩ same
  obtain ⟨-, parts, spans⟩ := elementDatum_inj.1 same
  simp only [List.cons.injEq, Prod.mk.injEq, true_and, and_true] at parts spans
  rw [Token.toLeafDatum_injective parts.1, Token.toLeafDatum_injective parts.2, spans]

/-- A suffix is told by the type of what it holds. -/
theorem ImportSuffix.toDatum_injective : Function.Injective toDatum := by
  rintro (suffix | suffix) (other | other) same
  · exact congrArg ImportSuffix.alias (ImportAlias.toDatum_injective same)
  · exact absurd (elementDatum_inj.1 same).1 (by decide)
  · exact absurd (elementDatum_inj.1 same).1 (by decide)
  · exact congrArg ImportSuffix.wildcard (ImportWildcard.toDatum_injective same)

/-- A present import suffix is never written as null. -/
theorem ImportSuffix.toDatum_ne_null (suffix : ImportSuffix) : suffix.toDatum ≠ .null := by
  rcases suffix with suffix | suffix <;> exact elementDatum_ne_null _ _ _

/-- The parts of an import header can be read back, with the optional suffix told from null. -/
theorem ImportHeader.toDatum_injective : Function.Injective toDatum := by
  rintro ⟨keyword, identifier, suffix, terminator, span⟩
    ⟨otherKeyword, other, otherSuffix, otherTerminator, otherSpan⟩ same
  obtain ⟨-, parts, spans⟩ := elementDatum_inj.1 same
  simp only [List.cons.injEq, Prod.mk.injEq, true_and, and_true] at parts spans
  obtain ⟨keywords, identifiers, suffixes, terminators⟩ := parts
  have suffixInjective :=
    optionalDatum_injective ImportSuffix.toDatum_injective ImportSuffix.toDatum_ne_null
  rw [Token.toLeafDatum_injective keywords, Identifier.toDatum_injective identifiers,
    suffixInjective suffixes, Token.toLeafDatum_injective terminators, spans]

/-- A present qualifier is never written as null. -/
theorem UserType.toDatum_ne_null (type : UserType) : type.toDatum ≠ .null := by
  cases type with
  | simple => exact elementDatum_ne_null _ _ _
  | qualified => exact elementDatum_ne_null _ _ _

/-- A name without a qualifier is not serialized like one with a qualifier. -/
theorem UserType.toDatum_injective : Function.Injective toDatum := by
  intro left
  induction left with
  | simple identifier span =>
      intro right same
      cases right with
      | simple other otherSpan =>
          obtain ⟨-, parts, spans⟩ := elementDatum_inj.1 same
          simp only [List.cons.injEq, Prod.mk.injEq, true_and, and_true] at parts spans
          rw [Token.toLeafDatum_injective parts, spans]
      | qualified qualifier other otherSpan =>
          obtain ⟨-, parts, -⟩ := elementDatum_inj.1 same
          simp only [List.cons.injEq, Prod.mk.injEq, true_and, and_true] at parts
          exact absurd parts.1.symm qualifier.toDatum_ne_null
  | qualified qualifier identifier span inductionHypothesis =>
      intro right same
      cases right with
      | simple other otherSpan =>
          obtain ⟨-, parts, -⟩ := elementDatum_inj.1 same
          simp only [List.cons.injEq, Prod.mk.injEq, true_and, and_true] at parts
          exact absurd parts.1 qualifier.toDatum_ne_null
      | qualified otherQualifier other otherSpan =>
          obtain ⟨-, parts, spans⟩ := elementDatum_inj.1 same
          simp only [List.cons.injEq, Prod.mk.injEq, true_and, and_true] at parts spans
          rw [inductionHypothesis parts.1, Token.toLeafDatum_injective parts.2, spans]

/-- A named type is not serialized like one in parentheses. -/
theorem UserType.toDatum_ne_parenthesized (type : UserType) (parts : List (String × Datum))
    (span : Span) : type.toDatum ≠ elementDatum "ParenthesizedType" parts span := by
  intro same
  cases type with
  | simple => exact absurd (elementDatum_inj.1 same).1 (by decide)
  | qualified => exact absurd (elementDatum_inj.1 same).1 (by decide)

/-- A type is told by the type of what it holds, within any parentheses. -/
theorem TypeReference.toDatum_injective : Function.Injective toDatum := by
  intro left
  induction left with
  | parenthesized opening inner closing span inductionHypothesis =>
      intro right same
      cases right with
      | parenthesized otherOpening otherInner otherClosing otherSpan =>
          obtain ⟨-, parts, spans⟩ := elementDatum_inj.1 same
          simp only [List.cons.injEq, Prod.mk.injEq, true_and, and_true] at parts spans
          obtain ⟨openings, inners, closings⟩ := parts
          rw [Token.toLeafDatum_injective openings, inductionHypothesis inners,
            Token.toLeafDatum_injective closings, spans]
      | user type => exact absurd same.symm (type.toDatum_ne_parenthesized _ _)
  | user type =>
      intro right same
      cases right with
      | parenthesized => exact absurd same (type.toDatum_ne_parenthesized _ _)
      | user other => exact congrArg user (UserType.toDatum_injective same)

/-- A present return type is never written as null. -/
theorem TypeReference.toDatum_ne_null (type : TypeReference) : type.toDatum ≠ .null := by
  cases type with
  | parenthesized => exact elementDatum_ne_null _ _ _
  | user type => exact type.toDatum_ne_null

/-- The parts of a function can be read back, with the optional return type told from null. -/
theorem FunctionDeclaration.toDatum_injective : Function.Injective toDatum := by
  rintro ⟨modifiers, keyword, identifier, closing, returnType, span⟩
    ⟨otherModifiers, otherKeyword, other, otherClosing, otherType, otherSpan⟩ same
  obtain ⟨-, parts, spans⟩ := elementDatum_inj.1 same
  simp only [List.cons.injEq, Prod.mk.injEq, true_and, and_true] at parts spans
  obtain ⟨modifierLists, keywords, identifiers, closings, types⟩ := parts
  have typeInjective :=
    optionalDatum_injective TypeReference.toDatum_injective TypeReference.toDatum_ne_null
  rw [listDatum_injective Token.toLeafDatum_injective modifierLists,
    Token.toLeafDatum_injective keywords, Token.toLeafDatum_injective identifiers,
    Token.toLeafDatum_injective closings, typeInjective types, spans]

/-- Files that are serialized alike are equal, in all of their tokens and spans. -/
theorem File.eq_of_serialized : Function.Injective File.toDatum := by
  rintro ⟨header, imports, declarations, endMarker, span⟩
    ⟨otherHeader, otherImports, otherDeclarations, otherMarker, otherSpan⟩ same
  obtain ⟨-, parts, spans⟩ := elementDatum_inj.1 same
  simp only [List.cons.injEq, Prod.mk.injEq, true_and, and_true] at parts spans
  obtain ⟨headers, importLists, declarationLists, markers⟩ := parts
  rw [PackageHeader.toDatum_injective headers,
    listDatum_injective ImportHeader.toDatum_injective importLists,
    listDatum_injective FunctionDeclaration.toDatum_injective declarationLists,
    Token.toLeafDatum_injective markers, spans]

end KiwiFront
