import KiwiFront.Peg.ParseError

/-!
# Output requests

A request names a stage, the tokens or the tree of a source, and the format to
write it in, joined by a hyphen. Plain lines show tokens only, and drawings show
trees only.
-/

namespace KiwiFront

/-- What is written of a source. -/
inductive Stage where
  | tokens
  | tree
deriving DecidableEq

/-- How it is written. -/
inductive Format where
  | lines
  | json
  | yaml
  | drawing
deriving DecidableEq

/-- Why a format cannot be used. -/
inductive FormatFault where
  | unknown (name : String)
  /-- Tokens cannot be drawn. -/
  | drawingOfTokens
  /-- Trees cannot be written in plain lines. -/
  | linesOfTree
  /-- Drawings are not made of serialized data. -/
  | noSerialization
deriving DecidableEq

/-- The wording of a fault. -/
def FormatFault.message : FormatFault -> String
  | .unknown name => name
  | .drawingOfTokens => "Format 'treeviz' only works with AST stage"
  | .linesOfTree => "Format 'simple' only works with token stage"
  | .noSerialization => "Treeviz is not a serialization format"

/-- Why there is no output. -/
inductive OutputError where
  | fileNotFound (path : String)
  /-- A request without a hyphen. -/
  | invalidFormat (text : String)
  | invalidStage (name : String)
  | invalidFormatType (fault : FormatFault)
  /-- A file that cannot be read, in the words of the system. -/
  | unreadable (reason : String)
  | parse (cause : Peg.ParseError)
deriving DecidableEq

/-- The wording of an error. -/
def OutputError.message : OutputError -> String
  | .fileNotFound path => s!"File not found: {path}"
  | .invalidFormat text => s!"Invalid format: {text}"
  | .invalidStage name => s!"Invalid stage: {name}"
  | .invalidFormatType fault => s!"Invalid format type: {fault.message}"
  | .unreadable reason => s!"IO error: {reason}"
  | .parse cause => s!"Parse error: {cause.message}"

namespace Stage

/-- How a stage is named in requests. -/
def label : Stage -> String
  | .tokens => "token"
  | .tree => "ast"

/-- The stage with a name. -/
def ofLabel? (name : String) : Option Stage :=
  [tokens, tree].find? (fun stage => stage.label == name)

theorem ofLabel?_label (stage : Stage) : ofLabel? stage.label = some stage := by
  cases stage <;> rfl

end Stage

namespace Format

/-- How a format is named in requests. -/
def label : Format -> String
  | .lines => "simple"
  | .json => "json"
  | .yaml => "yaml"
  | .drawing => "treeviz"

/-- The format with a name. -/
def ofLabel? (name : String) : Option Format :=
  [lines, json, yaml, drawing].find? (fun format => format.label == name)

theorem ofLabel?_label (format : Format) : ofLabel? format.label = some format := by
  cases format <;> rfl

end Format

/-- What to write of a source, and how. -/
structure OutputRequest where
  stage : Stage
  format : Format
deriving DecidableEq

namespace OutputRequest

/-- A request as it is written. -/
def display (request : OutputRequest) : String :=
  s!"{request.stage.label}-{request.format.label}"

/-- Why a stage cannot be written in a format, if it cannot. -/
def fault? (request : OutputRequest) : Option FormatFault :=
  match request.stage, request.format with
  | .tokens, .drawing => some .drawingOfTokens
  | .tree, .lines => some .linesOfTree
  | _, _ => none

/-- All requests that can be fulfilled. -/
def available : List OutputRequest :=
  [⟨.tokens, .lines⟩, ⟨.tokens, .json⟩, ⟨.tokens, .yaml⟩,
    ⟨.tree, .drawing⟩, ⟨.tree, .json⟩, ⟨.tree, .yaml⟩]

/-- Cuts characters at the first hyphen. -/
def cut? (characters : List Char) : Option (List Char × List Char) :=
  let isOther (character : Char) : Bool := character != '-'
  match characters.dropWhile isOther with
  | [] => none
  | _ :: behind => some (characters.takeWhile isOther, behind)

/-- Reads a request. -/
def read (text : String) : Except OutputError OutputRequest :=
  match cut? text.toList with
  | none => .error (.invalidFormat text)
  | some (stage, format) =>
      let stage := String.ofList stage
      let format := String.ofList format
      match Stage.ofLabel? stage, Format.ofLabel? format with
      | none, _ => .error (.invalidStage stage)
      | some _, none => .error (.invalidFormatType (.unknown format))
      | some stage, some format =>
          let request : OutputRequest := ⟨stage, format⟩
          match request.fault? with
          | some fault => .error (.invalidFormatType fault)
          | none => .ok request

end OutputRequest

end KiwiFront
