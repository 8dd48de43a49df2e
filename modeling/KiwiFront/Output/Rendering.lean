import KiwiFront.Data.Json
import KiwiFront.Files
import KiwiFront.Log
import KiwiFront.Output.Request
import KiwiFront.Parse
import KiwiFront.Settings
import KiwiFront.Tree.Drawing
import KiwiFront.Tree.KiwiTypes
import KiwiFront.Tree.Serialized
import KiwiFront.Tree.View
import KiwiFront.Yaml.Block

/-!
# Rendering sources

A rendering is the output for a source, or the reason why there is none, together
with the records of what happened on the way. The schema of a node type is resolved
when it is first asked for, so that only the first question leaves a record.
-/

namespace KiwiFront

open Peg

/-- A result, and the records that it left. -/
structure Logged (Result : Type) where
  result : Result
  records : List LogRecord

/-- Writes a datum. -/
def serialize (format : Format) (datum : Datum) : Except OutputError String :=
  match format with
  | .json => .ok (Json.ofDatum datum)
  | .yaml => .ok (Yaml.ofDatum datum)
  | _ => .error (.invalidFormatType .noSerialization)

/-- Writes tokens, in plain lines one token a line. -/
def formatTokens (format : Format) (tokens : List Token) : Except OutputError String :=
  match format with
  | .lines => .ok (String.join (tokens.map (fun token => token.display ++ "\n")))
  | _ => serialize format (listDatum Token.toDatum tokens)

/-- The outline of a file. -/
def File.outline (file : File) : Except NodeError Outline := do
  Outline.ofNode (← KiwiTypes.registry.mapError .schema) file.toNode

mutual

/-- The types of all nodes of an outline, in the order of their lines. -/
def Outline.types : Outline -> List String
  | .node name _ _ children => name :: childTypes children
  | .sequence elements => elementTypes elements

/-- The types of the nodes at and below some fields. -/
def childTypes : List (String × Outline) -> List String
  | [] => []
  | (_, child) :: rest => child.types ++ childTypes rest

/-- The types of the nodes at and below some elements. -/
def elementTypes : List Outline -> List String
  | [] => []
  | element :: rest => element.types ++ elementTypes rest

end

/-- Draws a file. -/
def drawFile (showSpans : Bool) (file : File) : Except OutputError String :=
  match file.outline with
  | .ok outline => .ok (outline.draw showSpans)
  | .error cause => .error (.parse (.node cause))

/-- Whether drawing a file asks for the schemas of its nodes, and in which order. -/
def drawingEvents (file : File) : List Event :=
  match file.outline with
  | .ok outline => outline.types.map .schemaAsked
  | .error _ => []

namespace LogRecord

/-- The part of the tools that lexes and hands tokens to the parser. -/
def parsingTarget : String := "kiwi::kiwi::parsing"

/-- The part of the tools that runs the parser. -/
def engineTarget : String := "kiwi::kiwi::parsing::engine"

/-- The part of the tools that resolves schemas. -/
def schemaTarget : String := "kiwi::kiwi::ast::schema"

/-- The part of the tools that handles files. -/
def processorTarget : String := "kiwi::kiwi::processor"

/-- The record of an event, if it leaves one. -/
def ofEvent? : Event -> Option LogRecord
  | .backtracked => none
  | .entered _ _ => none
  | .memoHit rule mark => some ⟨.trace, engineTarget, s!"memo hit {rule} at {displayMark mark}"⟩
  | .memoMissed rule mark growing =>
      let note := if growing then ", growing seed" else ""
      some ⟨.trace, engineTarget, s!"memo miss {rule} at {displayMark mark}{note}"⟩
  | .grew rule start stop =>
      some ⟨.trace, engineTarget,
        s!"{rule} at {displayMark start} grew to {displayMark stop}"⟩
  | .forceFailed position expected =>
      some ⟨.debug, engineTarget,
        s!"forced match failed at {position.display}: expected {expected}"⟩
  | .parseFailed position =>
      some ⟨.debug, engineTarget, s!"parse failed, furthest token at {position.display}"⟩
  | .schemaAsked type =>
      some ⟨.trace, schemaTarget, s!"resolving schema for node type `{type}`"⟩

/-- The records of events in order. A schema that was asked for before leaves none. -/
def ofEvents (asked : List String) : List Event -> List LogRecord
  | [] => []
  | .schemaAsked type :: rest =>
      if asked.contains type then ofEvents asked rest
      else (ofEvent? (.schemaAsked type)).toList ++ ofEvents (type :: asked) rest
  | event :: rest => (ofEvent? event).toList ++ ofEvents asked rest

end LogRecord

namespace OutputRequest

/-- Writes the tree of a source. -/
def renderTree (format : Format) (settings : Settings) (source : String) :
    Logged (Except OutputError String) :=
  let tokens := lex settings.joinNames source
  let report := parseReport settings.packrat tokens
  let lexed : LogRecord :=
    ⟨.debug, LogRecord.parsingTarget, s!"lexed {tokens.length} tokens"⟩
  let written (output : Except OutputError String) (drawn : List Event) :=
    Logged.mk output (lexed :: LogRecord.ofEvents [] (report.events ++ drawn))
  match report.result, format with
  | .error cause, _ => written (.error (.parse cause)) []
  | .ok file, .drawing => written (drawFile settings.showSpans file) (drawingEvents file)
  | .ok file, format => written (serialize format file.toDatum) []

/-- Fulfils a request for a source. -/
def render (request : OutputRequest) (settings : Settings) (source : String) :
    Logged (Except OutputError String) :=
  match request.stage with
  | .tokens => ⟨formatTokens request.format (lex settings.joinNames source), []⟩
  | .tree => renderTree request.format settings source

/-- Fulfils a request for what stands at a path. -/
def renderFile (request : OutputRequest) (settings : Settings) (path : String)
    (entry : FileEntry) : Logged (Except OutputError String) :=
  match entry.text with
  | .error .missing => ⟨.error (.fileNotFound path), []⟩
  | .error .directory => ⟨.error (.unreadable directoryMessage), []⟩
  | .error .notUnicode => ⟨.error (.unreadable notUnicodeMessage), []⟩
  | .ok source =>
      let rendering := request.render settings source
      let started : LogRecord :=
        ⟨.info, LogRecord.processorTarget, s!"processing {path} as {request.display}"⟩
      ⟨rendering.result, started :: rendering.records⟩

end OutputRequest

end KiwiFront
