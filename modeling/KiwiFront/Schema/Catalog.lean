import KiwiFront.Schema.Resolution

/-!
# Catalogs

A catalog is a registry in use: declarations, the closing, and questions for schemas and
node types come one after the other, and each of them gets a reply. A schema is resolved
when it is asked for the first time and kept from then on. A failure to resolve is not
kept, so that it is found anew.
-/

namespace KiwiFront

/-- A registry with the schemas that have been resolved. -/
structure Catalog where
  registry : Registry
  resolved : List (String × NodeSchema)

namespace Catalog

/-- What a catalog is asked to do. -/
inductive Request where
  | declare (declaration : Declaration)
  | close
  | schema (name : String)
  | isNodeType (name : String)

/-- What comes of a request. -/
inductive Reply where
  | declared (outcome : Except SchemaError Unit)
  | closed
  | schema (outcome : Except SchemaError NodeSchema)
  | isNodeType (outcome : Except SchemaError Bool)

/-- A catalog over an empty registry. -/
def empty : Catalog := ⟨.empty, []⟩

/-- Adds a declaration. A refused one changes nothing. -/
def declare (catalog : Catalog) (declaration : Declaration) : Except SchemaError Unit × Catalog :=
  match catalog.registry.declare declaration with
  | .ok extended => (.ok (), { catalog with registry := extended })
  | .error cause => (.error cause, catalog)

/-- The schema of a name, resolved unless it was so before. -/
def schema (catalog : Catalog) (name : String) : Except SchemaError NodeSchema × Catalog :=
  if catalog.registry.isClosed then
    match catalog.registry.find? name with
    | some (.node declaration) =>
        match catalog.resolved.lookup name with
        | some schema => (.ok schema, catalog)
        | none =>
            match catalog.registry.resolve declaration with
            | .ok schema =>
                (.ok schema, { catalog with resolved := (name, schema) :: catalog.resolved })
            | .error cause => (.error cause, catalog)
    | some _ => (.error (.notANode name), catalog)
    | none => (.error (.unknownType nodeBase name), catalog)
  else (.error (.notClosed name), catalog)

/-- Does what is asked for. -/
def take (catalog : Catalog) : Request -> Reply × Catalog
  | .declare declaration =>
      let (outcome, reached) := catalog.declare declaration
      (.declared outcome, reached)
  | .close => (.closed, { catalog with registry := catalog.registry.close })
  | .schema name =>
      let (outcome, reached) := catalog.schema name
      (.schema outcome, reached)
  | .isNodeType name => (.isNodeType (catalog.registry.isNodeType name), catalog)

/-- The catalog after some requests. -/
def after (catalog : Catalog) (requests : List Request) : Catalog :=
  requests.foldl (fun reached request => (reached.take request).2) catalog

/-- The replies to some requests. -/
def replies (catalog : Catalog) : List Request -> List Reply
  | [] => []
  | request :: rest =>
      let (reply, reached) := catalog.take request
      reply :: reached.replies rest

/-- The declaration that a request made, if the reply says so. -/
def Request.accepted? : Request -> Reply -> Option Declaration
  | .declare declaration, .declared (.ok ()) => some declaration
  | _, _ => none

/-- The declarations among some requests that were not refused. -/
def accepted (catalog : Catalog) : List Request -> List Declaration
  | [] => []
  | request :: rest =>
      let (reply, reached) := catalog.take request
      (request.accepted? reply).toList ++ reached.accepted rest

end Catalog

end KiwiFront
