import KiwiFront.Proofs.Grammar.Acceptance
import KiwiFront.Proofs.Grammar.Spellings
import KiwiFront.Tree.Layout
import Mathlib.Data.List.Forall2

/-!
# What a file keeps of its tokens

Whatever branches a parse has taken and given up, the file that it ends with is laid out
over the tokens of the buffer: each of them up to the end marker stands in a slot of the
file, in order, and the slots say which of them the file keeps and what the others are.
-/

namespace KiwiFront

open Peg

namespace Slot

/-- A token stands in a slot, and is no end marker. -/
def Takes (slot : Slot) (token : Token) : Prop :=
  slot.Holds token ∧ token.kind ≠ .endMarker

/-- A slot takes the token that it keeps. -/
theorem takes_kept {token : Token} (unmarked : token.kind ≠ .endMarker) :
    (kept token).Takes token :=
  ⟨rfl, unmarked⟩

/-- A name is kept as itself. -/
theorem takes_kept_of_name {token : Token} (isName : token.kind = .name) :
    (kept token).Takes token :=
  takes_kept (by simp [isName])

/-- An operator is kept as itself. -/
theorem takes_kept_of_operator {token : Token} {text : String}
    (isOperator : (Terminal.operator text).Matches token) : (kept token).Takes token :=
  takes_kept isOperator.1

end Slot

/-- The end of a statement may be left out. -/
theorem takes_terminator {token : Token}
    (ends : Terminal.newline.Matches token ∨ (Terminal.operator ";").Matches token) :
    (Slot.omitted .terminator).Takes token := by
  rcases ends with isNewline | isSemicolon
  · have isNewline : token.kind = .newline := isNewline
    exact ⟨.inl isNewline, by simp [isNewline]⟩
  · exact ⟨.inr isSemicolon.2, isSemicolon.1⟩

/-- Tokens stand in slots one by one. -/
def Fill (slots : List Slot) (tokens : List Token) : Prop :=
  List.Forall₂ Slot.Takes slots tokens

namespace Fill

variable {slots laterSlots : List Slot} {tokens later : List Token}

/-- Slots are filled one stretch after the other. -/
theorem append (here : Fill slots tokens) (there : Fill laterSlots later) :
    Fill (slots ++ laterSlots) (tokens ++ later) :=
  List.rel_append here there

/-- A single slot is filled by a single token. -/
theorem one {slot : Slot} {token : Token} (takes : slot.Takes token) : Fill [slot] [token] :=
  .cons takes .nil

/-- Values in a row are laid out in a row. -/
theorem each {Item : Type} {slotsOf : Item -> List Slot} {part : Item -> List Token -> Prop}
    (laid : ∀ item tokens, part item tokens -> Fill (slotsOf item) tokens) {items : List Item}
    (spelled : SpellsEach part items tokens) : Fill (items.flatMap slotsOf) tokens := by
  induction spelled with
  | none => exact .nil
  | more head _ inductionHypothesis => exact (laid _ _ head).append inductionHypothesis

/-- Tokens in a row that are all kept are laid out as they are. -/
theorem keptEach {part : Token -> List Token -> Prop}
    (laid : ∀ token tokens, part token tokens -> Fill [.kept token] tokens) {items : List Token}
    (spelled : SpellsEach part items tokens) : Fill (items.map .kept) tokens := by
  rw [List.map_eq_flatMap]
  exact each laid spelled

/-- Filled slots hold their tokens. -/
theorem holds (laid : Fill slots tokens) : List.Forall₂ Slot.Holds slots tokens :=
  List.Forall₂.imp (fun _ _ takes => takes.1) laid

/-- The end marker is in none of the slots before it. -/
theorem unmarked (laid : Fill slots tokens) : ∀ token ∈ tokens, token.kind ≠ .endMarker := by
  induction laid with
  | nil => exact fun _ member => absurd member List.not_mem_nil
  | cons takes _ inductionHypothesis =>
      exact List.forall_mem_cons.2 ⟨takes.2, inductionHypothesis⟩

end Fill

namespace KiwiGrammar

/-- How the value of a rule is laid out over the tokens that it is read from. -/
def LaidOut : (rule : KiwiRule) -> rule.Value -> List Token -> Prop
  | .start, (file : File), tokens =>
      ∃ spare front, tokens = front ++ [file.endMarker] ∧ file.endMarker.kind = .endMarker ∧
        Fill (file.frontSlots spare) front
  | .packageHeader, (header : PackageHeader), tokens => Fill header.slots tokens
  | .identifier, (name : Identifier), tokens => Fill (segmentSlots name.segments) tokens
  | .importList, (imports : List ImportHeader), tokens =>
      Fill (imports.flatMap ImportHeader.slots) tokens
  | .importHeader, (header : ImportHeader), tokens => Fill header.slots tokens
  | .importSuffix, (suffix : ImportSuffix), tokens => Fill suffix.slots tokens
  | .importAlias, suffix, tokens => Fill (ImportSuffix.slots (.alias suffix)) tokens
  | .topLevelObjectList, (declarations : List FunctionDeclaration), tokens =>
      Fill (declarations.flatMap FunctionDeclaration.statementSlots) tokens
  | .topLevelObject, (declaration : FunctionDeclaration), tokens =>
      Fill declaration.statementSlots tokens
  | .declaration, (declaration : FunctionDeclaration), tokens => Fill declaration.slots tokens
  | .functionDeclaration, (declaration : FunctionDeclaration), tokens =>
      Fill declaration.slots tokens
  | .modifiers, (modifiers : List Token), tokens => Fill (modifiers.map .kept) tokens
  | .type, (type : TypeReference), tokens => Fill type.slots tokens
  | .parenthesizedType, (type : TypeReference), tokens => Fill type.slots tokens
  | .userType, (type : UserType), tokens => Fill type.slots tokens
  | .semi, token, tokens => tokens = [token] ∧ (Slot.omitted .terminator).Takes token
  | .simpleIdentifier, token, tokens => Fill [.kept token] tokens
  | .modifier, token, tokens => Fill [.kept token] tokens
  | .simpleUserType, token, tokens => Fill [.kept token] tokens

/-- A terminator fills a slot that keeps it. -/
theorem laidOut_semi {token : Token} {tokens : List Token}
    (laid : LaidOut .semi token tokens) : Fill [.kept token] tokens := by
  obtain ⟨rfl, _, unmarked⟩ := laid
  exact .one (Slot.takes_kept unmarked)

/-- Every rule lays out what it reads, if the rules that it calls do. -/
theorem laidOut_agrees : kiwiGrammar.Agrees keywords LaidOut := by
  intro rule value tokens spelled
  cases rule with
  | start =>
      obtain ⟨header, imports, declarations, spare, rfl, laidHeader, laidImports,
        laidDeclarations, laidSpare, isMarker, _⟩ := spells_start spelled
      have front := (Fill.append laidHeader laidImports).append laidDeclarations
      rcases laidSpare with rfl | ⟨terminator, rfl, ends⟩
      · exact ⟨false, _, rfl, isMarker, front.append .nil⟩
      · exact ⟨true, _, rfl, isMarker, front.append (.one ends)⟩
  | packageHeader =>
      obtain ⟨name, terminator, rfl, isKeyword, laidName, laidEnd, _⟩ :=
        spells_packageHeader spelled
      have keyword := Fill.one (Slot.takes_kept_of_name isKeyword.1)
      exact (keyword.append laidName).append (laidOut_semi laidEnd)
  | identifier =>
      obtain ⟨first, others, here, behind, segments, rfl, laidFirst, laidOthers, _⟩ :=
        spells_identifier spelled
      -- Each later segment brings the dot before it along.
      have rest : Fill (others.flatMap fun other => [.omitted .dot, .kept other]) behind := by
        refine Fill.each ?_ laidOthers
        rintro segment _ ⟨dot, _, rfl, isDot, laid⟩
        exact .cons ⟨isDot.2, isDot.1⟩ laid
      change Fill (segmentSlots (Identifier.segments value)) _
      rw [segments]
      exact Fill.append laidFirst rest
  | simpleIdentifier =>
      obtain ⟨rfl, isName⟩ := spells_simpleIdentifier spelled
      exact .one (Slot.takes_kept_of_name isName.1)
  | importList => exact Fill.each (fun _ _ laid => laid) spelled
  | importHeader =>
      obtain ⟨name, suffix, terminator, rfl, isKeyword, laidName, laidSuffix, laidEnd, _⟩ :=
        spells_importHeader spelled
      have keyword := Fill.one (Slot.takes_kept_of_name isKeyword.1)
      refine ((keyword.append laidName).append ?_).append (laidOut_semi laidEnd)
      rcases laidSuffix with ⟨missing, rfl⟩ | ⟨given, present, laid⟩
      · rw [missing]
        exact .nil
      · rw [present]
        exact laid
  | importSuffix =>
      rcases spells_importSuffix spelled with ⟨given, rfl, laid⟩ |
        ⟨given, rfl, rfl, isDot, isStar, _⟩
      · exact laid
      · exact .cons (Slot.takes_kept_of_operator isDot)
          (Fill.one (Slot.takes_kept_of_operator isStar))
  | importAlias =>
      obtain ⟨name, rfl, isKeyword, laidName, _⟩ := spells_importAlias spelled
      exact .cons (Slot.takes_kept_of_name isKeyword.1) laidName
  | semi =>
      obtain ⟨rfl, ends⟩ := spells_semi spelled
      exact ⟨rfl, takes_terminator ends⟩
  | topLevelObjectList => exact Fill.each (fun _ _ laid => laid) spelled
  | topLevelObject =>
      obtain ⟨function, _, terminator, rfl, laid, rfl, ends⟩ := spells_topLevelObject spelled
      exact Fill.append laid (.one ends)
  | declaration => exact spelled
  | functionDeclaration =>
      obtain ⟨modifiers, name, opening, returnType, rfl, laidModifiers, isKeyword, laidName,
        isOpening, isClosing, laidType, _⟩ := spells_functionDeclaration spelled
      have keyword := Fill.one (Slot.takes_kept_of_name isKeyword.1)
      have opened : Fill [.omitted .opening] [opening] := .one ⟨isOpening.2, isOpening.1⟩
      have closed := Fill.one (Slot.takes_kept_of_operator isClosing)
      have typed : Fill (optionalSlots (fun type => .omitted .colon :: type.slots)
          (FunctionDeclaration.returnType value)) returnType := by
        rcases laidType with ⟨missing, rfl⟩ | ⟨given, colon, behind, present, rfl, isColon, laid⟩
        · rw [missing]
          exact .nil
        · rw [present]
          exact .cons ⟨isColon.2, isColon.1⟩ laid
      have whole := laidModifiers.append
        (keyword.append (laidName.append (opened.append (closed.append typed))))
      simpa [LaidOut, FunctionDeclaration.slots] using whole
  | modifiers => exact Fill.keptEach (fun _ _ laid => laid) spelled
  | modifier =>
      obtain ⟨rfl, isName⟩ := spells_modifier spelled
      exact .one (Slot.takes_kept_of_name isName)
  | type =>
      rcases spells_type spelled with laid | ⟨named, rfl, laid⟩
      · exact laid
      · exact laid
  | parenthesizedType =>
      obtain ⟨opening, inner, closing, span, within, rfl, rfl, isOpening, laid, isClosing, _⟩ :=
        spells_parenthesizedType spelled
      have first := Fill.one (Slot.takes_kept_of_operator isOpening)
      exact (first.append laid).append (.one (Slot.takes_kept_of_operator isClosing))
  | userType =>
      rcases spells_userType spelled with
        ⟨qualifier, identifier, span, front, dot, last, rfl, rfl, laidFront, isDot, laidLast, _⟩ |
        ⟨identifier, span, rfl, laid, _⟩
      · exact Fill.append laidFront (.cons ⟨isDot.2, isDot.1⟩ laidLast)
      · exact laid
  | simpleUserType => exact spelled

end KiwiGrammar

variable {packrat : Bool} {tokens : List Token} {file : File}

/-- A package header, a function with a return type, and a blank line. -/
def functionTokens : List Token :=
  [.nameAt 1 1 "package", .nameAt 1 9 "a", .newlineAt 1 10,
    .nameAt 2 1 "fun", .nameAt 2 5 "f", .placed .leftParen "(" 2 6, .placed .rightParen ")" 2 7,
    .placed .colon ":" 2 8, .nameAt 2 10 "b", .newlineAt 2 11, .newlineAt 3 1]

/-- The tokens make a file. -/
theorem functionTokens_parsed : ∃ file, parseTokens true functionTokens = .ok file := by
  have name (row column : Int) (text : String) (free : text ∉ KiwiGrammar.keywords) :
      (Production.rule .simpleIdentifier).Yields [Token.nameAt row column text] :=
    .rule (.terminal ⟨rfl, free⟩)
  have word (row column : Int) (text : String) :
      (Production.word text).Yields [Token.nameAt row column text] :=
    .terminal ⟨rfl, rfl⟩
  have sign (kind : TokenKind) (row column : Int) (text : String) (unmarked : kind ≠ .endMarker) :
      (Production.sign text).Yields [Token.placed kind text row column] :=
    .terminal ⟨unmarked, rfl⟩
  have line (row column : Int) : (Production.rule .semi).Yields [Token.newlineAt row column] :=
    .rule (.first (.terminal rfl))
  have header : (Production.rule .packageHeader).Yields
      ([Token.nameAt 1 1 "package"] ++
        (([Token.nameAt 1 9 "a"] ++ []) ++ [Token.newlineAt 1 10])) := by
    refine .rule (.both (word 1 1 "package") (.both (.rule ?_) (line 1 10)))
    exact .both (name 1 9 "a" (by decide)) .none
  have returnType : (Production.rule .type).Yields [Token.nameAt 2 10 "b"] :=
    .rule (.second (.rule (.second (.rule (name 2 10 "b" (by decide))))))
  have function : (Production.rule .functionDeclaration).Yields
      ([] ++ ([Token.nameAt 2 1 "fun"] ++ ([Token.nameAt 2 5 "f"] ++
        ([Token.placed .leftParen "(" 2 6] ++ ([Token.placed .rightParen ")" 2 7] ++
          ([Token.placed .colon ":" 2 8] ++ [Token.nameAt 2 10 "b"])))))) := by
    refine .rule (.both (.rule .none) (.both (word 2 1 "fun") ?_))
    refine .both (name 2 5 "f" (by decide)) (.both (sign .leftParen 2 6 "(" nofun) ?_)
    refine .both (sign .rightParen 2 7 ")" nofun) (.given ?_)
    exact .both (sign .colon 2 8 ":" nofun) returnType
  have statement : (Production.rule .topLevelObject).Yields (_ ++ [Token.newlineAt 2 11]) :=
    .rule (.both (.rule function) (line 2 11))
  have functions : (Production.rule .topLevelObjectList).Yields (_ ++ []) :=
    .rule (.more statement .none)
  have rest : (Production.inOrder (.rule .importList) [.rule .topLevelObjectList,
      .optional (.rule .semi), .terminal .endMarker]).Yields
        ([] ++ (_ ++ ([Token.newlineAt 3 1] ++ [Token.endMarkerAt 3 2]))) :=
    .both (.rule .none) (.both functions (.both (.given (line 3 1)) (.terminal rfl)))
  have generated : KiwiRule.start.Generates (_ ++ _) := .rule (.both header rest)
  exact exists_file_of_generates true (by decide) (by decide) generated

/-- A file that is parsed is laid out over the first tokens of the buffer. -/
theorem laidOut_of_parseTokens (parsed : parseTokens packrat tokens = .ok file) :
    ∃ spare front rest, Buffer.close tokens = front ++ file.endMarker :: rest ∧
      file.endMarker.kind = .endMarker ∧ Fill (file.frontSlots spare) front := by
  obtain ⟨read, rest, whole, spelled⟩ := spells_of_parseTokens parsed
  obtain ⟨spare, front, rfl, isMarker, laid⟩ := spelled _ KiwiGrammar.laidOut_agrees
  exact ⟨spare, front, rest, by simpa using whole, isMarker, laid⟩

/-- The tokens up to the first end marker stand in the slots of the file. -/
theorem holds_of_parseTokens (parsed : parseTokens packrat tokens = .ok file) :
    ∃ spare front rest, Buffer.close tokens = front ++ file.endMarker :: rest ∧
      file.endMarker.kind = .endMarker ∧ (∀ token ∈ front, token.kind ≠ .endMarker) ∧
      List.Forall₂ Slot.Holds (file.slots spare) (front ++ [file.endMarker]) := by
  obtain ⟨spare, front, rest, whole, isMarker, laid⟩ := laidOut_of_parseTokens parsed
  refine ⟨spare, front, rest, whole, isMarker, laid.unmarked, ?_⟩
  exact List.rel_append laid.holds (.cons rfl .nil)

/-- A file keeps tokens of the buffer in their order. -/
theorem keptTokens_sublist (parsed : parseTokens packrat tokens = .ok file) :
    file.keptTokens.Sublist (Buffer.close tokens) := by
  obtain ⟨spare, front, rest, whole, _, _, held⟩ := holds_of_parseTokens parsed
  have read : (front ++ [file.endMarker]).Sublist (Buffer.close tokens) := by
    rw [whole]
    simp
  rw [← file.kept_slots spare]
  exact (Slot.kept_sublist held).trans read

/-- A file that is parsed keeps tokens of the buffer, in their order, and no others. Those up
to the first end marker stand in the slots of the file: the ones that it does not keep are
the dots within its names and types, an opening parenthesis for each function, a colon for
each return type, the end of the statement of each function, and one more terminator at most
before the end marker. -/
theorem parseTokens_layout (packrat : Bool) (tokens : List Token) (file : File)
    (parsed : parseTokens packrat tokens = .ok file) :
    file.keptTokens.Sublist (Buffer.close tokens) ∧
      ∃ spare front rest, Buffer.close tokens = front ++ file.endMarker :: rest ∧
        file.endMarker.kind = .endMarker ∧ (∀ token ∈ front, token.kind ≠ .endMarker) ∧
        List.Forall₂ Slot.Holds (file.slots spare) (front ++ [file.endMarker]) ∧
        (file.slots spare).filterMap Slot.kept? = file.keptTokens := by
  obtain ⟨spare, front, rest, whole, isMarker, unmarked, held⟩ := holds_of_parseTokens parsed
  exact ⟨keptTokens_sublist parsed, spare, front, rest, whole, isMarker, unmarked, held,
    file.kept_slots spare⟩

/-- Of a function with a return type and a blank line behind it, the file leaves out an opening
parenthesis, a colon, and two line feeds. -/
theorem parseTokens_layout_function : ∃ file, parseTokens true functionTokens = .ok file ∧
    file.keptTokens.Sublist (Buffer.close functionTokens) ∧
      ∃ spare front rest, Buffer.close functionTokens = front ++ file.endMarker :: rest ∧
        file.endMarker.kind = .endMarker ∧ (∀ token ∈ front, token.kind ≠ .endMarker) ∧
        List.Forall₂ Slot.Holds (file.slots spare) (front ++ [file.endMarker]) ∧
        (file.slots spare).filterMap Slot.kept? = file.keptTokens := by
  obtain ⟨file, parsed⟩ := functionTokens_parsed
  exact ⟨file, parsed, parseTokens_layout true functionTokens file parsed⟩

end KiwiFront
