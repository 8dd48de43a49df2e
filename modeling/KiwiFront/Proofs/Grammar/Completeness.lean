import KiwiFront.Proofs.Grammar.DottedTypes

/-!
# Reading what can be derived

The rules read every token sequence that they derive, if what stands behind it does not
make it longer. All elements they build have a place, since all tokens have one.
-/

namespace KiwiFront.KiwiGrammar

open Peg

variable {buffer : Buffer} {token : Token} {tokens rest : List Token} {text : String}

/-- All tokens are proper. -/
def AllProper (tokens : List Token) : Prop :=
  ∀ token ∈ tokens, token.Proper

/-- Of two sequences, all tokens are proper if those of both are. -/
theorem allProper_append {left right : List Token} :
    AllProper (left ++ right) ↔ AllProper left ∧ AllProper right :=
  List.forall_mem_append

/-- A proper token has a place. -/
theorem AllProper.located (proper : AllProper tokens) :
    ∀ token ∈ tokens, token.span.isLocated = true :=
  fun token member => (proper token member).located

/-- A proper token is plain: only a star is written like one. -/
theorem AllProper.plain (proper : AllProper tokens) : ∀ token ∈ tokens, token.Plain :=
  fun token member => (proper token member).plain

/-- What holds of all tokens holds of those of each part. -/
theorem repeats_and {holds : Token -> Prop} (each : ∀ token ∈ tokens, holds token)
    {part : List Token -> Prop} (repeats : Repeats part tokens) :
    Repeats (fun piece => part piece ∧ ∀ token ∈ piece, holds token) tokens := by
  induction repeats with
  | none => exact .none
  | more head _ inductionHypothesis =>
      obtain ⟨here, behind⟩ := List.forall_mem_append.1 each
      exact .more ⟨head, here⟩ (inductionHypothesis behind)

section Terminals

/-- A keyword is read where it stands. -/
theorem keyword_reads (isWord : (Terminal.keyword text).Matches token) :
    kiwiGrammar.Reads (forgetful buffer) (keyword text) [token] rest (· = token) :=
  .token (accepts_keyword_iff.2 isWord)

/-- So is an operator. -/
theorem literal_reads (isOperator : (Terminal.operator text).Matches token) :
    kiwiGrammar.Reads (forgetful buffer) (literal text) [token] rest (· = token) :=
  .token (accepts_literal_iff.2 isOperator)

/-- Where no such word is next, none is read. -/
theorem keyword_refuses (notNext : (Terminal.keyword text).NotNext rest) :
    kiwiGrammar.Refuses (forgetful buffer) (keyword text) rest := by
  refine .token fun token isNext => ?_
  rw [← Bool.not_eq_true, accepts_keyword_iff]
  exact notNext token isNext

/-- Where no such operator is next, none is read. -/
theorem literal_refuses (notNext : (Terminal.operator text).NotNext rest) :
    kiwiGrammar.Refuses (forgetful buffer) (literal text) rest := by
  refine .token fun token isNext => ?_
  rw [← Bool.not_eq_true, accepts_literal_iff]
  exact notNext token isNext

/-- Looking ahead passes there. -/
theorem literal_passes (notNext : (Terminal.operator text).NotNext rest) :
    kiwiGrammar.Passes (forgetful buffer) (.look false (literal text)) rest fun _ => True := by
  refine .lookToken fun token isNext => ?_
  rw [← Bool.not_eq_true, accepts_literal_iff]
  exact notNext token isNext

end Terminals

section Names

/-- A name is read. -/
theorem simpleIdentifier_reads (isName : Terminal.name.Matches token) :
    kiwiGrammar.Reads (forgetful buffer) (sub .simpleIdentifier) [token] rest (· = token) :=
  .call rfl (by decide) (.token (accepts_name_iff.2 isName))

/-- What follows a dotted name: no dot, or the dot of a wildcard. -/
def EndsName (rest : List Token) : Prop :=
  (Terminal.operator ".").NotNext rest ∨
    ∃ dot star behind, (Terminal.operator ".").Matches dot ∧
      (Terminal.operator "*").Matches star ∧ rest = dot :: star :: behind

/-- What a dotted name repeats. -/
def segment : Phrase Token :=
  .after (literal ".") (.after (.look false (literal "*")) forcedSegment)

/-- A dot and a name behind it are a segment of a name. -/
theorem segment_reads (derived : Segment tokens) (plain : ∀ token ∈ tokens, token.Plain) :
    kiwiGrammar.Reads (forgetful buffer) segment tokens rest
      fun name => name.span.isLocated = true := by
  obtain ⟨dot, name, isDot, isName, rfl⟩ := derived
  have namePlain : name.Plain := plain name (by simp)
  have noStar : (Terminal.operator "*").NotNext ([name] ++ rest) :=
    Terminal.notNext_cons (namePlain.not_star_of_name isName)
  have forced : kiwiGrammar.Reads (forgetful buffer) forcedSegment [name] rest (· = name) :=
    (simpleIdentifier_reads isName).force
  have dotted : kiwiGrammar.Reads (forgetful buffer) segment [dot, name] rest (· = name) :=
    (literal_reads isDot).after ((literal_passes noStar).reads.after forced)
  refine dotted.mono ?_
  rintro value rfl
  exact namePlain.located

/-- A name ends where no dot is next, or a star is next to the dot. -/
theorem segment_refuses (ends : EndsName rest) :
    kiwiGrammar.Refuses (forgetful buffer) segment rest := by
  rcases ends with noDot | ⟨dot, star, behind, isDot, isStar, rfl⟩
  · exact .map (.bothFirst (literal_refuses noDot))
  · have starAhead : kiwiGrammar.Refuses (forgetful buffer) (.look false (literal "*"))
        (star :: behind) := .lookToken (accepts_literal_iff.2 isStar)
    exact .map (.bothBehind (accepts_literal_iff.2 isDot) (.map (.bothFirst starAhead)))

/-- The segments of a dotted name are read wherever they stand. -/
theorem segments_read {piece : List Token}
    (described : (Production.both (Production.sign ".") (.rule .simpleIdentifier)).Describes
      (kiwiGrammar.Derives keywords) piece)
    (plain : ∀ token ∈ piece, token.Plain) :
    piece ≠ [] ∧ kiwiGrammar.Reads (forgetful buffer) segment piece rest
      fun name => name.span.isLocated = true := by
  obtain ⟨_, _, rfl, ⟨dot, isDot, rfl⟩, last⟩ := described
  obtain ⟨name, isName, rfl⟩ := derives_simpleIdentifier_iff.1 last
  exact ⟨nofun, segment_reads ⟨dot, name, isDot, isName, rfl⟩ plain⟩

/-- A dotted name is read up to its end. -/
theorem identifier_reads (derived : kiwiGrammar.Derives keywords .identifier tokens)
    (plain : ∀ token ∈ tokens, token.Plain) (ends : EndsName rest) :
    kiwiGrammar.Reads (forgetful buffer) (sub .identifier) tokens rest
      fun identifier => identifier.span.isLocated = true := by
  obtain ⟨_, others, rfl, named, repeats⟩ := derives_iff.1 derived
  obtain ⟨first, isName, rfl⟩ := derives_simpleIdentifier_iff.1 named
  obtain ⟨firstPlain, othersPlain⟩ := List.forall_mem_append.1 plain
  have firstLocated := (firstPlain first List.mem_cons_self).located
  have segments : kiwiGrammar.ReadsEach (forgetful buffer) segment
      (fun name => name.span.isLocated = true) others rest :=
    .of_repeats (repeats_and othersPlain repeats)
      (fun _ _ part => segments_read part.1 part.2) (segment_refuses ends)
  have parts := (simpleIdentifier_reads isName).both (Grammar.Reads.many segments)
  refine .call rfl (by decide) (.choiceFirst (parts.build ?_))
  rintro ⟨name, names⟩ ⟨rfl, namesLocated⟩
  have allLocated : ∀ token ∈ name :: names, token.span.isLocated = true :=
    List.forall_mem_cons.2 ⟨firstLocated, namesLocated⟩
  have isLast := List.getLast?_eq_some_getLast (List.cons_ne_nil name names)
  have lastLocated := allLocated _ (List.mem_of_getLast? isLast)
  exact ⟨_, Identifier.build_eq isLast firstLocated lastLocated, Span.isLocated_iff.2
    ⟨(Span.isLocated_iff.1 firstLocated).1, (Span.isLocated_iff.1 lastLocated).2⟩⟩

end Names

section Words

/-- The ways in which a statement can end. -/
def semiMatchers : List Matcher := [.kind .newline, .literal ";"]

/-- The three ways to end a statement are those that the expression tries. -/
theorem semi_accepted_iff :
    (∃ matcher ∈ semiMatchers, matcher.accepts keywords token = true) ↔ EndsStatement token := by
  simp [semiMatchers, EndsStatement, accepts_newline_iff, accepts_literal_iff]

/-- A token that ends a statement is read as such. -/
theorem semi_reads (ends : EndsStatement token) :
    kiwiGrammar.Reads (forgetful buffer) (sub .semi) [token] rest (· = token) := by
  have reads : kiwiGrammar.Reads (forgetful buffer) (.alternatives (semiMatchers.map .token))
      [token] rest (· = token) := .anyToken (semi_accepted_iff.2 ends)
  exact .call rfl (by decide) reads

/-- Where no such token is next, none is read. -/
theorem semi_refuses (notNext : ∀ token ∈ rest.head?, ¬ EndsStatement token) :
    kiwiGrammar.Refuses (forgetful buffer) (sub .semi) rest := by
  have refuses : kiwiGrammar.Refuses (forgetful buffer) (.alternatives (semiMatchers.map .token))
      rest := by
    refine .anyToken fun matcher member token isNext => ?_
    rw [← Bool.not_eq_true]
    intro accepted
    exact notNext token isNext (semi_accepted_iff.1 ⟨matcher, member, accepted⟩)
  exact .call rfl (by decide) refuses

/-- A modifier is one token. -/
theorem modifier_reads (derived : kiwiGrammar.Derives keywords .modifier tokens) :
    kiwiGrammar.Reads (forgetful buffer) (sub .modifier) tokens rest (tokens = [·]) := by
  obtain ⟨word, listed, token, isWord, rfl⟩ := derives_modifier_iff.1 derived
  have reads : kiwiGrammar.Reads (forgetful buffer)
      (.alternatives ((modifierWords.map Matcher.keyword).map .token)) [token] rest
      (· = token) :=
    .anyToken ⟨_, List.mem_map_of_mem listed, accepts_keyword_iff.2 isWord⟩
  have called : kiwiGrammar.Reads (forgetful buffer) (sub .modifier) [token] rest (· = token) :=
    .call rfl (by decide) reads
  refine called.mono ?_
  rintro value rfl
  rfl

/-- Where none of the words is next, no modifier is read. -/
theorem modifier_refuses
    (notNext : ∀ word ∈ modifierWords, (Terminal.keyword word).NotNext rest) :
    kiwiGrammar.Refuses (forgetful buffer) (sub .modifier) rest := by
  have refuses : kiwiGrammar.Refuses (forgetful buffer)
      (.alternatives ((modifierWords.map Matcher.keyword).map .token)) rest := by
    refine .anyToken fun matcher member token isNext => ?_
    obtain ⟨word, listed, rfl⟩ := List.mem_map.1 member
    rw [← Bool.not_eq_true, accepts_keyword_iff]
    exact notNext word listed token isNext
  exact .call rfl (by decide) refuses

/-- Modifiers are read up to where none of the words is next. -/
theorem modifiers_reads (derived : kiwiGrammar.Derives keywords .modifiers tokens)
    (proper : AllProper tokens)
    (notNext : ∀ word ∈ modifierWords, (Terminal.keyword word).NotNext rest) :
    kiwiGrammar.Reads (forgetful buffer) (sub .modifiers) tokens rest
      fun modifiers : List Token => ∀ modifier ∈ modifiers, modifier.span.isLocated = true := by
  have each : kiwiGrammar.ReadsEach (forgetful buffer) (sub .modifier)
      (fun modifier : Token => modifier.span.isLocated = true) tokens rest := by
    refine .of_repeats (repeats_and proper (derives_iff.1 derived)) ?_ (modifier_refuses notNext)
    rintro piece behind ⟨isModifier, pieceProper⟩
    constructor
    · obtain ⟨_, _, _, _, rfl⟩ := derives_modifier_iff.1 isModifier
      exact List.cons_ne_nil _ _
    · refine (modifier_reads isModifier).mono ?_
      rintro modifier rfl
      exact (pieceProper modifier List.mem_cons_self).located
  exact .call rfl (by decide) (.many each)

end Words

section Types

/-- Parentheses around a type that is read are read. -/
theorem parenthesizedType_reads {opening closing : Token} {inner : List Token}
    (isOpening : (Terminal.operator "(").Matches opening)
    (isClosing : (Terminal.operator ")").Matches closing) (openingProper : opening.Proper)
    (closingProper : closing.Proper)
    (innerReads : kiwiGrammar.Reads (forgetful buffer) (sub .type) inner ([closing] ++ rest)
      fun _ => True) :
    kiwiGrammar.Reads (forgetful buffer) (sub .parenthesizedType)
      ([opening] ++ (inner ++ [closing])) rest
      fun type : TypeReference => type.span.isLocated = true := by
  have closed : kiwiGrammar.Reads (forgetful buffer) (forcedLiteral ")" "')'") [closing] rest
      (· = closing) := (literal_reads isClosing).force
  have parts := (literal_reads isOpening).both (innerReads.both closed)
  refine .call rfl (by decide) (.choiceFirst (parts.build ?_))
  rintro ⟨first, type, last⟩ ⟨rfl, _, rfl⟩
  exact ⟨_, TypeReference.buildParenthesized_eq openingProper.located closingProper.located,
    Span.isLocated_iff.2 ⟨(Span.isLocated_iff.1 openingProper.located).1,
      (Span.isLocated_iff.1 closingProper.located).2⟩⟩

/-- A type in parentheses begins with one. -/
theorem parenthesizedType_refuses (notNext : (Terminal.operator "(").NotNext rest) :
    kiwiGrammar.Refuses (forgetful buffer) (sub .parenthesizedType) rest :=
  .call rfl (by decide) (.choice (.build (.bothFirst (literal_refuses notNext))) .fail)

/-- A type is read up to its end, by induction on how deep it nests. -/
theorem type_reads (derived : kiwiGrammar.Derives keywords .type tokens)
    (proper : AllProper tokens) (noDot : (Terminal.operator ".").NotNext rest) :
    kiwiGrammar.Reads (forgetful buffer) (sub .type) tokens rest
      fun type : TypeReference => type.span.isLocated = true := by
  obtain ⟨height, derived⟩ := derived
  induction height generalizing tokens rest with
  | zero => exact derived.elim
  | succ height inductionHypothesis =>
      rcases (describes_iff _ .type tokens).1 derived with parenthesized | dotted
      · cases height with
        | zero => exact parenthesized.elim
        | succ lower =>
            obtain ⟨_, _, rfl, ⟨opening, isOpening, rfl⟩, inner, _, rfl, nested, closing, isClosing,
              rfl⟩ := (describes_iff _ .parenthesizedType tokens).1 parenthesized
            obtain ⟨openingProper, behindProper⟩ := allProper_append.1 proper
            obtain ⟨innerProper, closingProper⟩ := allProper_append.1 behindProper
            have noDotBehind : (Terminal.operator ".").NotNext ([closing] ++ rest) := by
              refine Terminal.notNext_cons ?_
              rintro ⟨_, isDot⟩
              exact absurd (isDot.symm.trans isClosing.2) (by decide)
            have innerReads := inductionHypothesis innerProper noDotBehind
              (nested.mono (Nat.le_succ lower))
            have reads := parenthesizedType_reads isOpening isClosing
              (openingProper opening List.mem_cons_self) (closingProper closing List.mem_cons_self)
              (innerReads.mono fun _ _ => trivial)
            exact .call rfl (by decide) (.choiceFirst reads)
      · have userType : kiwiGrammar.Derives keywords .userType tokens := ⟨height, dotted⟩
        have noParenthesis : (Terminal.operator "(").NotNext (tokens ++ rest) := by
          obtain ⟨name, segments, isName, _, rfl⟩ := dotted_of_userType userType
          exact Terminal.notNext_cons
            ((proper name List.mem_cons_self).not_operator_of_name isName.1 (by decide))
        exact .call rfl (by decide) (.choiceSecond (parenthesizedType_refuses noParenthesis)
          (.choiceFirst (.map (userType_reads userType proper.located noDot)
            fun _ located => located)))

end Types

section Functions

/-- The type that a function may return, behind a colon. -/
def returnType : Phrase (Option TypeReference) :=
  .optional (.after (literal ":") (.force (sub .type) "type"))

/-- A type behind a colon is read whole, or nothing is where there is no colon. -/
theorem returnType_reads
    (described : (Production.optional (.both (Production.sign ":") (.rule .type))).Describes
      (kiwiGrammar.Derives keywords) tokens)
    (proper : AllProper tokens) (noColon : (Terminal.operator ":").NotNext rest)
    (noDot : (Terminal.operator ".").NotNext rest) :
    kiwiGrammar.Reads (forgetful buffer) returnType tokens rest
      fun type => ∀ given ∈ type, given.span.isLocated = true := by
  rcases described with ⟨_, type, rfl, ⟨colon, isColon, rfl⟩, typed⟩ | rfl
  · have typeProper := (allProper_append.1 proper).2
    exact .optionalSome ((literal_reads isColon).after (type_reads typed typeProper noDot).force)
  · have refuses : kiwiGrammar.Refuses (forgetful buffer)
        (.after (literal ":") (.force (sub .type) "type")) rest :=
      .map (.bothFirst (literal_refuses noColon))
    refine (Grammar.Reads.optionalNone refuses).mono ?_
    rintro _ rfl given ⟨⟩

/-- A function is read up to its type, or up to its closing parenthesis. -/
theorem functionDeclaration_reads
    (derived : kiwiGrammar.Derives keywords .functionDeclaration tokens)
    (proper : AllProper tokens) (noColon : (Terminal.operator ":").NotNext rest)
    (noDot : (Terminal.operator ".").NotNext rest) :
    kiwiGrammar.Reads (forgetful buffer) (sub .functionDeclaration) tokens rest
      fun function : FunctionDeclaration => function.span.isLocated = true := by
  obtain ⟨modifiers, _, rfl, listed, _, _, rfl, ⟨word, isFun, rfl⟩, _, _, rfl, named, _, _, rfl,
    ⟨opening, isOpening, rfl⟩, _, type, rfl, ⟨closing, isClosing, rfl⟩, typed⟩ :=
      derives_iff.1 derived
  obtain ⟨name, isName, rfl⟩ := derives_simpleIdentifier_iff.1 named
  simp only [allProper_append] at proper
  obtain ⟨modifiersProper, wordProper, _, _, closingProper, typeProper⟩ := proper
  have wordLocated := wordProper.located word List.mem_cons_self
  have closingLocated := closingProper.located closing List.mem_cons_self
  have noModifier : ∀ other ∈ modifierWords, (Terminal.keyword other).NotNext
      ([word] ++ ([name] ++ ([opening] ++ ([closing] ++ type))) ++ rest) := by
    intro other listed
    refine Terminal.notNext_cons ?_
    rintro ⟨_, sameText⟩
    rw [← sameText, isFun.2] at listed
    exact absurd listed (by decide)
  refine .call rfl (by decide) (.choiceFirst (.build
    ((modifiers_reads listed modifiersProper noModifier).both
      ((keyword_reads isFun).both
        ((simpleIdentifier_reads isName).force.both
          ((literal_reads isOpening).force.after
            ((literal_reads isClosing).force.both
              (returnType_reads typed typeProper noColon noDot)))))) ?_))
  rintro ⟨given, _, _, _, returned⟩ ⟨givenLocated, rfl, rfl, rfl, returnedLocated⟩
  refine ⟨_, FunctionDeclaration.build_eq givenLocated wordLocated closingLocated
    returnedLocated, Span.isLocated_iff.2 ⟨?_, ?_⟩⟩
  · cases given with
    | nil => exact (Span.isLocated_iff.1 wordLocated).1
    | cons modifier others =>
        exact (Span.isLocated_iff.1 (givenLocated modifier List.mem_cons_self)).1
  · cases returned with
    | none => exact (Span.isLocated_iff.1 closingLocated).2
    | some type => exact (Span.isLocated_iff.1 (returnedLocated type rfl)).2

/-- A declaration is read with the end of its statement, whatever stands behind it. -/
theorem topLevelObject_reads (derived : kiwiGrammar.Derives keywords .topLevelObject tokens)
    (proper : AllProper tokens) :
    kiwiGrammar.Reads (forgetful buffer) (sub .topLevelObject) tokens rest
      fun function : FunctionDeclaration => function.span.isLocated = true := by
  obtain ⟨_, _, rfl, declared, ended⟩ := derives_iff.1 derived
  obtain ⟨terminator, ends, rfl⟩ := derives_semi_iff.1 ended
  obtain ⟨declarationProper, terminatorProper⟩ := allProper_append.1 proper
  have isProper := terminatorProper terminator List.mem_cons_self
  have noColon : (Terminal.operator ":").NotNext ([terminator] ++ rest) :=
    Terminal.notNext_cons (ends.not_operator isProper (by decide) (by decide))
  have noDot : (Terminal.operator ".").NotNext ([terminator] ++ rest) :=
    Terminal.notNext_cons (ends.not_operator isProper (by decide) (by decide))
  have declaration : kiwiGrammar.Reads (forgetful buffer) (sub .declaration) _ _ _ :=
    .call rfl (by decide) (functionDeclaration_reads (derives_iff.1 declared) declarationProper
      noColon noDot)
  exact .call rfl (by decide) (.choiceFirst (declaration.before (semi_reads ends).force))

/-- A declaration begins with a modifier or a function. -/
theorem topLevelObject_refuses
    (notNext : ∀ word ∈ "fun" :: modifierWords, (Terminal.keyword word).NotNext rest) :
    kiwiGrammar.Refuses (forgetful buffer) (sub .topLevelObject) rest := by
  have noModifier : kiwiGrammar.Refuses (forgetful buffer) (sub .modifier) rest :=
    modifier_refuses fun word listed => notNext word (List.mem_cons_of_mem _ listed)
  have noFun : kiwiGrammar.Refuses (forgetful buffer) (keyword "fun") rest :=
    keyword_refuses (notNext "fun" List.mem_cons_self)
  have modifiers : kiwiGrammar.Passes (forgetful buffer) (sub .modifiers) rest (· = []) :=
    .call rfl (by decide) (.many noModifier)
  have function : kiwiGrammar.Refuses (forgetful buffer) (sub .functionDeclaration) rest :=
    .call rfl (by decide) (.choice (.build (.bothInPlace modifiers (.bothFirst noFun))) .fail)
  have declaration : kiwiGrammar.Refuses (forgetful buffer) (sub .declaration) rest :=
    .call rfl (by decide) function
  exact .call rfl (by decide) (.choice (.map (.bothFirst declaration)) .fail)

/-- Declarations are read one behind the other. -/
theorem topLevelObjectList_reads
    (derived : kiwiGrammar.Derives keywords .topLevelObjectList tokens)
    (proper : AllProper tokens)
    (notNext : ∀ word ∈ "fun" :: modifierWords, (Terminal.keyword word).NotNext rest) :
    kiwiGrammar.Reads (forgetful buffer) (sub .topLevelObjectList) tokens rest fun _ => True := by
  have each : kiwiGrammar.ReadsEach (forgetful buffer) (sub .topLevelObject)
      (fun function : FunctionDeclaration => function.span.isLocated = true) tokens rest := by
    refine .of_repeats (repeats_and proper (derives_iff.1 derived)) ?_
      (topLevelObject_refuses notNext)
    rintro piece behind ⟨isObject, pieceProper⟩
    refine ⟨?_, topLevelObject_reads isObject pieceProper⟩
    obtain ⟨_, _, rfl, _, ended⟩ := derives_iff.1 isObject
    obtain ⟨terminator, _, rfl⟩ := derives_semi_iff.1 ended
    exact List.append_ne_nil_of_right_ne_nil _ (List.cons_ne_nil _ _)
  have all : kiwiGrammar.Reads (forgetful buffer) (body .topLevelObjectList) tokens rest _ :=
    .many each
  exact .call rfl (by decide) (all.mono fun _ _ => trivial)

end Functions

section Imports

/-- An alias is read. -/
theorem importAlias_reads (derived : kiwiGrammar.Derives keywords .importAlias tokens)
    (proper : AllProper tokens) :
    kiwiGrammar.Reads (forgetful buffer) (sub .importAlias) tokens rest
      fun suffix : ImportAlias => suffix.span.isLocated = true := by
  obtain ⟨_, _, rfl, ⟨word, isAs, rfl⟩, named⟩ := derives_iff.1 derived
  obtain ⟨name, isName, rfl⟩ := derives_simpleIdentifier_iff.1 named
  have wordLocated := proper.located word (by simp)
  have nameLocated := proper.located name (by simp)
  refine .call rfl (by decide) (.choiceFirst (.build
    ((keyword_reads isAs).both (simpleIdentifier_reads isName).force) ?_))
  rintro ⟨_, _⟩ ⟨rfl, rfl⟩
  exact ⟨_, ImportAlias.build_eq wordLocated nameLocated, Span.isLocated_iff.2
    ⟨(Span.isLocated_iff.1 wordLocated).1, (Span.isLocated_iff.1 nameLocated).2⟩⟩

/-- It begins with its keyword. -/
theorem importAlias_refuses (notNext : (Terminal.keyword "as").NotNext rest) :
    kiwiGrammar.Refuses (forgetful buffer) (sub .importAlias) rest :=
  .call rfl (by decide) (.choice (.build (.bothFirst (keyword_refuses notNext))) .fail)

/-- A wildcard is a dot and a star. -/
theorem importWildcard_reads {dot star : Token} (isDot : (Terminal.operator ".").Matches dot)
    (isStar : (Terminal.operator "*").Matches star) (proper : AllProper [dot, star]) :
    kiwiGrammar.Reads (forgetful buffer) importWildcard [dot, star] rest
      fun suffix => suffix.span.isLocated = true := by
  have dotLocated := proper.located dot (by simp)
  have starLocated := proper.located star (by simp)
  refine .build ((literal_reads isDot).both (literal_reads isStar)) ?_
  rintro ⟨_, _⟩ ⟨rfl, rfl⟩
  exact ⟨_, ImportWildcard.build_eq dotLocated starLocated, Span.isLocated_iff.2
    ⟨(Span.isLocated_iff.1 dotLocated).1, (Span.isLocated_iff.1 starLocated).2⟩⟩

/-- A suffix is a wildcard or an alias. -/
theorem importSuffix_reads (derived : kiwiGrammar.Derives keywords .importSuffix tokens)
    (proper : AllProper tokens) :
    kiwiGrammar.Reads (forgetful buffer) (sub .importSuffix) tokens rest
      fun suffix : ImportSuffix => suffix.span.isLocated = true := by
  rcases derives_iff.1 derived with named | ⟨_, _, rfl, ⟨dot, isDot, rfl⟩, ⟨star, isStar, rfl⟩⟩
  · exact .call rfl (by decide)
      (.choiceFirst (.map (importAlias_reads named proper) fun _ located => located))
  · have noAs : (Terminal.keyword "as").NotNext ([dot] ++ [star] ++ rest) := by
      refine Terminal.notNext_cons ?_
      rintro ⟨_, isAs⟩
      exact absurd (isAs.symm.trans isDot.2) (by decide)
    exact .call rfl (by decide) (.choiceSecond (.map (importAlias_refuses noAs))
      (.choiceFirst (.map (importWildcard_reads isDot isStar proper) fun _ located => located)))

/-- Where neither of them may begin, there is none. -/
theorem importSuffix_refuses (noAs : (Terminal.keyword "as").NotNext rest)
    (noDot : (Terminal.operator ".").NotNext rest) :
    kiwiGrammar.Refuses (forgetful buffer) (sub .importSuffix) rest :=
  .call rfl (by decide) (.choice (.map (importAlias_refuses noAs))
    (.choice (.map (.build (.bothFirst (literal_refuses noDot)))) .fail))

/-- A dotted name ends before a suffix. -/
theorem endsName_of_importSuffix (derived : kiwiGrammar.Derives keywords .importSuffix tokens) :
    EndsName (tokens ++ rest) := by
  rcases derives_iff.1 derived with named | ⟨_, _, rfl, ⟨dot, isDot, rfl⟩, ⟨star, isStar, rfl⟩⟩
  · obtain ⟨_, _, rfl, ⟨word, isAs, rfl⟩, _⟩ := derives_iff.1 named
    refine .inl (Terminal.notNext_cons ?_)
    rintro ⟨_, isDot⟩
    exact absurd (isDot.symm.trans isAs.2) (by decide)
  · exact .inr ⟨dot, star, rest, isDot, isStar, rfl⟩

/-- An import is read with the end of its statement, whatever stands behind it. -/
theorem importHeader_reads (derived : kiwiGrammar.Derives keywords .importHeader tokens)
    (proper : AllProper tokens) :
    kiwiGrammar.Reads (forgetful buffer) (sub .importHeader) tokens rest fun _ => True := by
  obtain ⟨_, _, rfl, ⟨word, isImport, rfl⟩, name, _, rfl, named, suffix, _, rfl, suffixed,
    ended⟩ := derives_iff.1 derived
  obtain ⟨terminator, ends, rfl⟩ := derives_semi_iff.1 ended
  simp only [allProper_append] at proper
  obtain ⟨wordProper, nameProper, suffixProper, terminatorProper⟩ := proper
  have isProper := terminatorProper terminator List.mem_cons_self
  have noDot : (Terminal.operator ".").NotNext ([terminator] ++ rest) :=
    Terminal.notNext_cons (ends.not_operator isProper (by decide) (by decide))
  have noAs : (Terminal.keyword "as").NotNext ([terminator] ++ rest) :=
    Terminal.notNext_cons (ends.not_keyword (by decide))
  have suffixReads : kiwiGrammar.Reads (forgetful buffer) (.optional (sub .importSuffix)) suffix
      ([terminator] ++ rest) fun suffix => ∀ given ∈ suffix, given.span.isLocated = true := by
    rcases suffixed with given | rfl
    · exact .optionalSome (importSuffix_reads given suffixProper)
    · refine (Grammar.Reads.optionalNone (importSuffix_refuses noAs noDot)).mono ?_
      rintro _ rfl given ⟨⟩
  have nameEnds : EndsName (suffix ++ [terminator] ++ rest) := by
    rcases suffixed with given | rfl
    · rw [List.append_assoc]
      exact endsName_of_importSuffix given
    · exact .inl noDot
  have wordLocated := wordProper.located word List.mem_cons_self
  refine .call rfl (by decide) (.choiceFirst (.build
    ((keyword_reads isImport).both
      ((identifier_reads named nameProper.plain nameEnds).force.both
        (suffixReads.both (semi_reads ends).force))) ?_))
  rintro ⟨_, _, _, _⟩ ⟨rfl, nameLocated, suffixLocated, rfl⟩
  exact ⟨_, ImportHeader.build_eq wordLocated nameLocated suffixLocated, trivial⟩

/-- An import begins with its keyword. -/
theorem importHeader_refuses (notNext : (Terminal.keyword "import").NotNext rest) :
    kiwiGrammar.Refuses (forgetful buffer) (sub .importHeader) rest :=
  .call rfl (by decide) (.choice (.build (.bothFirst (keyword_refuses notNext))) .fail)

/-- Imports are read one behind the other. -/
theorem importList_reads (derived : kiwiGrammar.Derives keywords .importList tokens)
    (proper : AllProper tokens) (notNext : (Terminal.keyword "import").NotNext rest) :
    kiwiGrammar.Reads (forgetful buffer) (sub .importList) tokens rest fun _ => True := by
  have each : kiwiGrammar.ReadsEach (forgetful buffer) (sub .importHeader) (fun _ => True) tokens
      rest := by
    refine .of_repeats (repeats_and proper (derives_iff.1 derived)) ?_
      (importHeader_refuses notNext)
    rintro piece behind ⟨isImport, pieceProper⟩
    refine ⟨?_, importHeader_reads isImport pieceProper⟩
    obtain ⟨_, _, rfl, ⟨_, _, rfl⟩, _⟩ := derives_iff.1 isImport
    exact List.cons_ne_nil _ _
  have all : kiwiGrammar.Reads (forgetful buffer) (body .importList) tokens rest _ := .many each
  exact .call rfl (by decide) (all.mono fun _ _ => trivial)

end Imports

section Files

/-- A package header is read up to the end of its statement. -/
theorem packageHeader_reads (derived : kiwiGrammar.Derives keywords .packageHeader tokens)
    (proper : AllProper tokens) :
    kiwiGrammar.Reads (forgetful buffer) (sub .packageHeader) tokens rest
      fun header : PackageHeader => header.span.isLocated = true := by
  obtain ⟨_, _, rfl, ⟨word, isPackage, rfl⟩, name, _, rfl, named, ended⟩ := derives_iff.1 derived
  obtain ⟨terminator, ends, rfl⟩ := derives_semi_iff.1 ended
  simp only [allProper_append] at proper
  obtain ⟨wordProper, nameProper, terminatorProper⟩ := proper
  have wordLocated := wordProper.located word List.mem_cons_self
  have isProper := terminatorProper terminator List.mem_cons_self
  have noDot : (Terminal.operator ".").NotNext ([terminator] ++ rest) :=
    Terminal.notNext_cons (ends.not_operator isProper (by decide) (by decide))
  refine .call rfl (by decide) (.choiceFirst (.build
    ((keyword_reads isPackage).both
      ((identifier_reads named nameProper.plain (.inl noDot)).force.both
        (semi_reads ends).force)) ?_))
  rintro ⟨_, _, _⟩ ⟨rfl, nameLocated, rfl⟩
  exact ⟨_, PackageHeader.build_eq wordLocated nameLocated, Span.isLocated_iff.2
    ⟨(Span.isLocated_iff.1 wordLocated).1, (Span.isLocated_iff.1 nameLocated).2⟩⟩

/-- What ends a file: the end of a statement, which may be missing, and the end marker. -/
theorem fileEnd_reads {ending : List Token} {marker : Token}
    (ended : (Production.optional (.rule .semi)).Describes (kiwiGrammar.Derives keywords) ending)
    (isEnd : Terminal.endMarker.Matches marker) :
    kiwiGrammar.Reads (forgetful buffer)
      (.after (.optional (sub .semi)) (.force (.token (.kind .endMarker)) "end of input"))
      (ending ++ [marker]) rest (· = marker) := by
  have markerReads : kiwiGrammar.Reads (forgetful buffer) (.token (.kind .endMarker)) [marker]
      rest (· = marker) := .token (accepts_endMarker_iff.2 isEnd)
  rcases ended with given | rfl
  · obtain ⟨terminator, ends, rfl⟩ := derives_semi_iff.1 given
    exact (Grammar.Reads.optionalSome (semi_reads ends)).after markerReads.force
  · have noSemi : ∀ token ∈ ([marker] ++ rest).head?, ¬ EndsStatement token := by
      rintro token ⟨⟩ (isNewline | ⟨notEnd, _⟩)
      · cases isNewline.symm.trans isEnd
      · exact notEnd isEnd
    exact (Grammar.Reads.optionalNone (semi_refuses noSemi)).after markerReads.force

/-- Nothing else than a semicolon may be next at the end of a file. -/
theorem fileEnd_notNext {ending : List Token} {marker : Token}
    (ended : (Production.optional (.rule .semi)).Describes (kiwiGrammar.Derives keywords) ending)
    (isEnd : Terminal.endMarker.Matches marker) (other : text ≠ ";") :
    (Terminal.keyword text).NotNext (ending ++ [marker] ++ rest) := by
  rcases ended with given | rfl
  · obtain ⟨terminator, ends, rfl⟩ := derives_semi_iff.1 given
    exact Terminal.notNext_cons (ends.not_keyword other)
  · refine Terminal.notNext_cons ?_
    rintro ⟨isName, _⟩
    cases isName.symm.trans isEnd

/-- A whole file is read. -/
theorem start_reads (derived : kiwiGrammar.Derives keywords .start tokens)
    (proper : AllProper tokens) :
    kiwiGrammar.Reads (forgetful buffer) (sub .start) tokens rest fun _ => True := by
  obtain ⟨header, _, rfl, headed, imports, _, rfl, imported, objects, _, rfl, declared, ending, _,
    rfl, ended, marker, isEnd, rfl⟩ := derives_iff.1 derived
  simp only [allProper_append] at proper
  obtain ⟨headerProper, importsProper, objectsProper, _, markerProper⟩ := proper
  have markerLocated := markerProper.located marker List.mem_cons_self
  have noImport :
      (Terminal.keyword "import").NotNext (objects ++ (ending ++ [marker]) ++ rest) := by
    have notInObjects : (Terminal.keyword "import").NotNext objects :=
      Terminal.notNext_repeats (derives_iff.1 declared) fun piece isObject =>
        topLevelObject_notNext isObject (by decide) (by decide)
    rw [List.append_assoc]
    exact Terminal.notNext_append notInObjects (fileEnd_notNext ended isEnd (by decide))
  have noObject : ∀ word ∈ "fun" :: modifierWords,
      (Terminal.keyword word).NotNext (ending ++ [marker] ++ rest) := by
    have noSemicolon : ∀ word ∈ "fun" :: modifierWords, word ≠ ";" := by decide
    exact fun word listed => fileEnd_notNext ended isEnd (noSemicolon word listed)
  refine .call rfl (by decide) (.choiceFirst (.build ((packageHeader_reads headed headerProper).both
    ((importList_reads imported importsProper noImport).both
      ((topLevelObjectList_reads declared objectsProper noObject).both
        (fileEnd_reads ended isEnd)))) ?_))
  rintro ⟨_, _, _, _⟩ ⟨headerLocated, _, _, rfl⟩
  exact ⟨_, File.build_eq headerLocated markerLocated, trivial⟩

end Files

end KiwiFront.KiwiGrammar
