import KiwiFront.Tree.KeptTokens
import Mathlib.Data.List.Forall2

/-!
# The layout of elements

The source of an element is a row of slots. Most of them hold a token that the element
keeps; the others stand for tokens that it leaves out: the dots of names, the opening
parenthesis and the colon of a function, and the line breaks and semicolons behind
functions. The slots of an element follow from the element alone.
-/

namespace KiwiFront

/-- What elements leave out. -/
inductive Omission where
  /-- The dot between two segments of a name. -/
  | dot
  /-- The opening parenthesis of a function. -/
  | opening
  /-- The colon before a return type. -/
  | colon
  /-- The end of a statement. -/
  | terminator
deriving DecidableEq

/-- A place for one token in the source of an element. -/
inductive Slot where
  | kept (token : Token)
  | omitted (omission : Omission)
deriving DecidableEq

/-- The tokens that may be left out. -/
def Omission.Allows (token : Token) : Omission -> Prop
  | dot => token.text = "."
  | opening => token.text = "("
  | colon => token.text = ":"
  | terminator => token.kind = .newline ∨ token.text = ";"

namespace Slot

/-- The token that a slot keeps. -/
def kept? : Slot -> Option Token
  | kept token => some token
  | omitted _ => none

/-- A token stands in a slot if it is the one that is kept, or one that is left out there. -/
def Holds (slot : Slot) (token : Token) : Prop :=
  match slot with
  | kept own => own = token
  | omitted omission => omission.Allows token

end Slot

/-- The first segment of a name, and a dot before each of the others. -/
def segmentSlots : List Token -> List Slot
  | [] => []
  | first :: others => .kept first :: others.flatMap fun other => [.omitted .dot, .kept other]

def PackageHeader.slots (header : PackageHeader) : List Slot :=
  .kept header.keyword :: segmentSlots header.identifier.segments ++ [.kept header.terminator]

def ImportSuffix.slots (suffix : ImportSuffix) : List Slot :=
  suffix.keptTokens.map .kept

/-- The slots of something that may be missing. -/
def optionalSlots {Item : Type} (slotsOf : Item -> List Slot) : Option Item -> List Slot
  | some item => slotsOf item
  | none => []

def ImportHeader.slots (header : ImportHeader) : List Slot :=
  .kept header.keyword :: segmentSlots header.identifier.segments ++
    optionalSlots ImportSuffix.slots header.suffix ++ [.kept header.terminator]

def UserType.slots : UserType -> List Slot
  | .simple identifier _ => [.kept identifier]
  | .qualified qualifier identifier _ => qualifier.slots ++ [.omitted .dot, .kept identifier]

def TypeReference.slots : TypeReference -> List Slot
  | .parenthesized opening inner closing _ => .kept opening :: inner.slots ++ [.kept closing]
  | .user type => type.slots

def FunctionDeclaration.slots (declaration : FunctionDeclaration) : List Slot :=
  declaration.modifiers.map .kept ++
    [.kept declaration.keyword, .kept declaration.identifier, .omitted .opening,
      .kept declaration.closing] ++
    optionalSlots (fun type => .omitted .colon :: type.slots) declaration.returnType

/-- A function and the end of its statement. -/
def FunctionDeclaration.statementSlots (declaration : FunctionDeclaration) : List Slot :=
  declaration.slots ++ [.omitted .terminator]

/-- The slots of a file before its end marker. One more terminator may stand there than
the functions have. -/
def File.frontSlots (file : File) (spare : Bool) : List Slot :=
  file.packageHeader.slots ++ file.imports.flatMap ImportHeader.slots ++
    file.declarations.flatMap FunctionDeclaration.statementSlots ++
    if spare then [.omitted .terminator] else []

def File.slots (file : File) (spare : Bool) : List Slot :=
  file.frontSlots spare ++ [.kept file.endMarker]

namespace Slot

@[simp] theorem filterMap_kept (token : Token) (slots : List Slot) :
    (kept token :: slots).filterMap kept? = token :: slots.filterMap kept? := rfl

@[simp] theorem filterMap_omitted (omission : Omission) (slots : List Slot) :
    (omitted omission :: slots).filterMap kept? = slots.filterMap kept? := rfl

/-- What slots keep stands in them, in the same order. -/
theorem kept_sublist {slots : List Slot} {tokens : List Token}
    (held : List.Forall₂ Holds slots tokens) : (slots.filterMap kept?).Sublist tokens := by
  induction held with
  | nil => exact .slnil
  | @cons slot token _ _ holds _ inductionHypothesis =>
      cases slot with
      | kept own =>
          obtain rfl : own = token := holds
          exact inductionHypothesis.cons_cons own
      | omitted omission => exact inductionHypothesis.cons token

end Slot

/-- The segments are kept and the dots between them left out. -/
theorem kept_segmentSlots (segments : List Token) :
    (segmentSlots segments).filterMap Slot.kept? = segments := by
  cases segments with
  | nil => rfl
  | cons first others => simp [segmentSlots, List.filterMap_flatMap]

/-- The slots of a package header keep its tokens. -/
theorem PackageHeader.kept_slots (header : PackageHeader) :
    header.slots.filterMap Slot.kept? = header.keptTokens := by
  simp [slots, keptTokens, kept_segmentSlots]

/-- Both tokens of an import suffix are kept. -/
theorem ImportSuffix.kept_slots (suffix : ImportSuffix) :
    suffix.slots.filterMap Slot.kept? = suffix.keptTokens := by
  cases suffix <;> rfl

/-- The slots of an import header keep its tokens. -/
theorem ImportHeader.kept_slots (header : ImportHeader) :
    header.slots.filterMap Slot.kept? = header.keptTokens := by
  cases suffix : header.suffix with
  | none => simp [slots, keptTokens, kept_segmentSlots, suffix, optionalSlots, optionalTokens]
  | some given =>
      simp [slots, keptTokens, kept_segmentSlots, suffix, optionalSlots, optionalTokens,
        given.kept_slots]

/-- The slots of a type name keep its segments, by induction on the qualifier. -/
theorem UserType.kept_slots (type : UserType) :
    type.slots.filterMap Slot.kept? = type.segments := by
  induction type with
  | simple => rfl
  | qualified _ _ _ inductionHypothesis => simp [slots, segments, inductionHypothesis]

/-- The slots of a type keep its tokens, by induction on the parentheses. -/
theorem TypeReference.kept_slots (type : TypeReference) :
    type.slots.filterMap Slot.kept? = type.keptTokens := by
  induction type with
  | parenthesized _ _ _ _ inductionHypothesis => simp [slots, keptTokens, inductionHypothesis]
  | user type => exact type.kept_slots

/-- A statement leaves out an operator or two and its terminator, and keeps everything else. -/
theorem FunctionDeclaration.kept_statementSlots (declaration : FunctionDeclaration) :
    declaration.statementSlots.filterMap Slot.kept? = declaration.keptTokens := by
  have modifiers : (declaration.modifiers.map Slot.kept).filterMap Slot.kept? =
      declaration.modifiers := by
    rw [List.filterMap_map]
    exact List.filterMap_some
  cases type : declaration.returnType with
  | none =>
      simp [statementSlots, slots, keptTokens, modifiers, type, optionalSlots, optionalTokens]
  | some given =>
      simp [statementSlots, slots, keptTokens, modifiers, type, optionalSlots, optionalTokens,
        given.kept_slots]

/-- The slots of a file keep the tokens of the file, whether there is a spare terminator or
not. -/
theorem File.kept_slots (file : File) (spare : Bool) :
    (file.slots spare).filterMap Slot.kept? = file.keptTokens := by
  have spareSlots : (if spare then [Slot.omitted .terminator] else []).filterMap Slot.kept? =
      [] := by
    cases spare <;> rfl
  simp [slots, frontSlots, keptTokens, spareSlots, List.filterMap_flatMap,
    PackageHeader.kept_slots, ImportHeader.kept_slots, FunctionDeclaration.kept_statementSlots]

end KiwiFront
