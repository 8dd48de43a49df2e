import KiwiFront.Grammar
import KiwiFront.Proofs.Peg.Delivery
import KiwiFront.Proofs.Tree.Locating

/-!
# What is read from located tokens

From located tokens every rule reads what is located, so that all its elements can be built.
Over any tokens, the only fault at an element is that it has no place.
-/

namespace KiwiFront

open Peg

/-- Whether a token is located. -/
def Token.IsLocated (token : Token) : Prop := token.span.isLocated = true

/-- Whether what a rule reads is located, if it is one element, or has only located
elements. -/
def KiwiRule.IsLocated : (rule : KiwiRule) -> rule.Value -> Prop
  | .start => fun file : File => file.span.isLocated = true
  | .packageHeader => fun header : PackageHeader => header.span.isLocated = true
  | .identifier => fun name : Identifier => name.span.isLocated = true
  | .importList => fun headers : List ImportHeader =>
      ∀ header ∈ headers, header.span.isLocated = true
  | .importHeader => fun header : ImportHeader => header.span.isLocated = true
  | .importSuffix => fun suffix : ImportSuffix => suffix.span.isLocated = true
  | .importAlias => fun suffix : ImportAlias => suffix.span.isLocated = true
  | .topLevelObjectList => fun declarations : List FunctionDeclaration =>
      ∀ declaration ∈ declarations, declaration.span.isLocated = true
  | .topLevelObject | .declaration | .functionDeclaration =>
      fun declaration : FunctionDeclaration => declaration.span.isLocated = true
  | .modifiers => fun modifiers : List Token => ∀ modifier ∈ modifiers, modifier.IsLocated
  | .type | .parenthesizedType => fun type : TypeReference => type.span.isLocated = true
  | .userType => fun type : UserType => type.span.isLocated = true
  | .simpleIdentifier | .semi | .modifier | .simpleUserType => Token.IsLocated

namespace KiwiGrammar

theorem sub_delivers (rule : KiwiRule) :
    (sub rule).Delivers Token.IsLocated KiwiRule.IsLocated rule.IsLocated :=
  .call rule

/-- Located tokens are read as what is located. -/
theorem body_delivers (rule : KiwiRule) :
    (body rule).Delivers Token.IsLocated KiwiRule.IsLocated rule.IsLocated := by
  cases rule with
  | start =>
      refine .alternative (.build (.both (sub_delivers _) (.both (sub_delivers _)
        (.both (sub_delivers _) (.after (.optional (sub_delivers _)) (.force (.token _) _))))) ?_)
      rintro ⟨header, imports, declarations, marker⟩ ⟨headerLocated, _, _, endLocated⟩
      exact File.exists_located headerLocated endLocated
  | packageHeader =>
      refine .alternative (.build (.both (.token _)
        (.both (.force (sub_delivers .identifier) _) (.force (sub_delivers .semi) _))) ?_)
      rintro ⟨keyword, name, terminator⟩ ⟨keywordLocated, nameLocated, _⟩
      exact PackageHeader.exists_located keywordLocated nameLocated
  | identifier =>
      refine .alternative (.build (.both (sub_delivers .simpleIdentifier)
        (.many (.after (.token _) (.after (.look (.token _) _)
          (.force (sub_delivers .simpleIdentifier) _))))) ?_)
      rintro ⟨first, others⟩ located
      exact Identifier.exists_located (List.cons_ne_nil _ _) (List.forall_mem_cons.2 located)
  | simpleIdentifier => exact .token _
  | importList => exact .many (sub_delivers _)
  | importHeader =>
      refine .alternative (.build (.both (.token _) (.both (.force (sub_delivers .identifier) _)
        (.both (.optional (sub_delivers .importSuffix)) (.force (sub_delivers .semi) _)))) ?_)
      rintro ⟨keyword, name, suffix, terminator⟩
        ⟨keywordLocated, nameLocated, suffixLocated, _⟩
      exact ImportHeader.exists_located keywordLocated nameLocated suffixLocated
  | importSuffix =>
      have wildcard : importWildcard.Delivers Token.IsLocated KiwiRule.IsLocated
          fun suffix => suffix.span.isLocated = true := by
        refine .build (.both (.token _) (.token _)) ?_
        rintro ⟨dot, star⟩ ⟨dotLocated, starLocated⟩
        exact ImportWildcard.exists_located dotLocated starLocated
      exact ⟨.map (sub_delivers .importAlias) fun _ => id, .map wildcard fun _ => id, trivial⟩
  | importAlias =>
      refine .alternative (.build (.both (.token _)
        (.force (sub_delivers .simpleIdentifier) _)) ?_)
      rintro ⟨keyword, name⟩ ⟨keywordLocated, nameLocated⟩
      exact ImportAlias.exists_located keywordLocated nameLocated
  | semi => exact ⟨.token _, .token _, trivial⟩
  | topLevelObjectList => exact .many (sub_delivers _)
  | topLevelObject =>
      exact .alternative (.before (sub_delivers _) (.force (sub_delivers .semi) _))
  | declaration => exact sub_delivers _
  | functionDeclaration =>
      refine .alternative (.build (.both (sub_delivers .modifiers) (.both (.token _)
        (.both (.force (sub_delivers .simpleIdentifier) _) (.after (.force (.token _) _)
          (.both (.force (.token _) _)
            (.optional (.after (.token _) (.force (sub_delivers .type) _)))))))) ?_)
      rintro ⟨modifiers, keyword, name, closing, returnType⟩
        ⟨modifiersLocated, keywordLocated, _, closingLocated, typeLocated⟩
      exact FunctionDeclaration.exists_located keywordLocated closingLocated modifiersLocated
        typeLocated
  | modifiers => exact .many (sub_delivers _)
  | modifier => exact ⟨.token _, .token _, .token _, trivial⟩
  | type => exact ⟨sub_delivers _, .map (sub_delivers .userType) fun _ => id, trivial⟩
  | parenthesizedType =>
      refine .alternative (.build (.both (.token _) (.both (sub_delivers .type)
        (.force (.token _) _))) ?_)
      rintro ⟨opening, inner, closing⟩ ⟨openingLocated, _, closingLocated⟩
      exact TypeReference.exists_located closingLocated openingLocated
  | userType =>
      refine ⟨.build (.both (sub_delivers .userType)
        (.after (.token _) (.force (sub_delivers .simpleUserType) _))) ?_,
          .build (sub_delivers .simpleUserType) ?_, trivial⟩
      · rintro ⟨qualifier, name⟩ ⟨qualifierLocated, nameLocated⟩
        refine UserType.exists_located nameLocated ?_
        rintro _ ⟨⟩
        exact qualifierLocated
      · exact fun name nameLocated => UserType.exists_located nameLocated nofun
  | simpleUserType => exact sub_delivers _

/-- Whatever the tokens are, no element fails for another reason than its place. -/
theorem body_failsBy (rule : KiwiRule) : (body rule).FailsBy NodeError.IsUnlocatable := by
  cases rule with
  | start => exact ⟨⟨fun _ _ => File.isUnlocatable, by repeat' constructor⟩, trivial⟩
  | packageHeader =>
      exact ⟨⟨fun _ _ => PackageHeader.isUnlocatable, by repeat' constructor⟩, trivial⟩
  | identifier => exact ⟨⟨fun _ _ => Identifier.isUnlocatable, by repeat' constructor⟩, trivial⟩
  | importHeader =>
      exact ⟨⟨fun _ _ => ImportHeader.isUnlocatable, by repeat' constructor⟩, trivial⟩
  | importSuffix =>
      exact ⟨trivial, ⟨fun _ _ => ImportWildcard.isUnlocatable, trivial, trivial⟩, trivial⟩
  | importAlias =>
      exact ⟨⟨fun _ _ => ImportAlias.isUnlocatable, trivial, trivial⟩, trivial⟩
  | functionDeclaration =>
      exact ⟨⟨fun _ _ => FunctionDeclaration.isUnlocatable, by repeat' constructor⟩, trivial⟩
  | parenthesizedType =>
      exact ⟨⟨fun _ _ => TypeReference.isUnlocatable, by repeat' constructor⟩, trivial⟩
  | userType =>
      exact ⟨⟨fun _ _ => UserType.isUnlocatable, by repeat' constructor⟩,
        ⟨fun _ _ => UserType.isUnlocatable, trivial⟩, trivial⟩
  | _ => repeat' constructor

end KiwiGrammar

end KiwiFront
