import KiwiFront.Proofs.Schema.Order
import KiwiFront.Schema.Catalog

/-!
# What a catalog replies

The replies of a catalog depend on the declarations that it has taken and on whether it is
closed, and on nothing else that happened to it: not on the order of the declarations, nor
on those that were refused, nor on the schemas that were resolved or could not be. What is
kept of a schema is what resolving it again would give, since a closed registry stays as it
is and an open one resolves nothing.
-/

namespace KiwiFront.Catalog

/-- No name is declared twice, and what is kept of a schema is what the registry says. -/
structure Sound (catalog : Catalog) : Prop where
  distinct : (catalog.registry.entries.map Prod.fst).Nodup
  resolved : ∀ name schema, catalog.resolved.lookup name = some schema ->
    catalog.registry.schema name = .ok schema

namespace Sound

variable {catalog : Catalog}

theorem empty : Catalog.empty.Sound :=
  ⟨List.nodup_singleton _, nofun⟩

/-- An open catalog has not resolved anything. -/
theorem lookup_of_open (sound : catalog.Sound) (isOpen : catalog.registry.isClosed = false)
    (name : String) : catalog.resolved.lookup name = none := by
  cases kept : catalog.resolved.lookup name with
  | none => rfl
  | some schema =>
      have resolved := sound.resolved name schema kept
      rw [Registry.schema, isOpen] at resolved
      cases resolved

/-- A declaration comes under a name that is not taken, before anything is resolved. -/
theorem declare (sound : catalog.Sound) (declaration : Declaration) :
    (catalog.declare declaration).2.Sound := by
  unfold Catalog.declare
  cases taken : catalog.registry.declare declaration with
  | error cause => exact sound
  | ok extended =>
      have isOpen := (Registry.declare_eq_ok_iff.1 taken).1
      refine ⟨Registry.distinct_of_declare sound.distinct taken, fun name schema kept => ?_⟩
      cases (sound.lookup_of_open isOpen name).symm.trans kept

theorem close (sound : catalog.Sound) :
    ({ catalog with registry := catalog.registry.close } : Catalog).Sound := by
  refine ⟨sound.distinct, fun name schema kept => ?_⟩
  cases isClosed : catalog.registry.isClosed with
  | false => cases (sound.lookup_of_open isClosed name).symm.trans kept
  | true =>
      have same : catalog.registry.close = catalog.registry := by
        rw [Registry.close, ← isClosed]
      exact (congrArg (fun registry => registry.schema name) same).trans
        (sound.resolved name schema kept)

/-- A schema that the registry gives may be kept. -/
theorem keep (sound : catalog.Sound) {name : String} {schema : NodeSchema}
    (given : catalog.registry.schema name = .ok schema) :
    ({ catalog with resolved := (name, schema) :: catalog.resolved } : Catalog).Sound := by
  refine ⟨sound.distinct, fun other found kept => ?_⟩
  rw [List.lookup_cons] at kept
  split at kept
  · rename_i same
    rw [eq_of_beq same, ← Option.some.inj kept]
    exact given
  · exact sound.resolved other found kept

/-- Asking for a schema tells what the registry says, changes no declaration, and keeps
nothing but what the registry says. -/
theorem schema (sound : catalog.Sound) (name : String) :
    (catalog.schema name).1 = catalog.registry.schema name ∧
      (catalog.schema name).2.registry = catalog.registry ∧ (catalog.schema name).2.Sound := by
  cases isClosed : catalog.registry.isClosed with
  | false =>
      simp only [Catalog.schema, Registry.schema, isClosed]
      exact ⟨rfl, rfl, sound⟩
  | true =>
      cases found : catalog.registry.find? name with
      | none =>
          simp only [Catalog.schema, Registry.schema, isClosed, found]
          exact ⟨rfl, rfl, sound⟩
      | some entry =>
          rcases entry with declaration | target | _
          · have asked : catalog.registry.schema name = catalog.registry.resolve declaration := by
              simp only [Registry.schema, isClosed, found, if_true]
            simp only [Catalog.schema, isClosed, found, if_true]
            cases kept : catalog.resolved.lookup name with
            | some schema => exact ⟨(sound.resolved name schema kept).symm, rfl, sound⟩
            | none =>
                cases resolved : catalog.registry.resolve declaration with
                | error cause => exact ⟨(asked.trans resolved).symm, rfl, sound⟩
                | ok schema =>
                    have given := asked.trans resolved
                    exact ⟨given.symm, rfl, sound.keep given⟩
          all_goals
            simp only [Catalog.schema, Registry.schema, isClosed, found]
            exact ⟨rfl, rfl, sound⟩

/-- Every request keeps a catalog sound. -/
theorem take (sound : catalog.Sound) (request : Request) : (catalog.take request).2.Sound := by
  cases request with
  | declare declaration => exact sound.declare declaration
  | close => exact sound.close
  | schema name => exact (sound.schema name).2.2
  | isNodeType name => exact sound

theorem after (sound : catalog.Sound) (requests : List Request) :
    (catalog.after requests).Sound := by
  induction requests generalizing catalog with
  | nil => exact sound
  | cons request rest inductionHypothesis => exact inductionHypothesis (sound.take request)

/-- A request adds the declaration that it makes, if it is taken, and no other one. -/
theorem take_entries (sound : catalog.Sound) (request : Request) :
    (catalog.take request).2.registry.entries = catalog.registry.entries ++
      (request.accepted? (catalog.take request).1).toList.map fun declaration =>
        (declaration.name, declaration.entry) := by
  cases request with
  | close | isNodeType => exact (List.append_nil _).symm
  | schema name =>
      have same := congrArg Registry.entries (sound.schema name).2.1
      exact same.trans (List.append_nil _).symm
  | declare declaration =>
      simp only [Catalog.take, Catalog.declare]
      cases taken : catalog.registry.declare declaration with
      | error cause => exact (List.append_nil _).symm
      | ok extended =>
          obtain ⟨_, _, rfl⟩ := Registry.declare_eq_ok_iff.1 taken
          rfl

/-- The entries of a registry are those of the accepted declarations, in order. -/
theorem after_entries (sound : catalog.Sound) (requests : List Request) :
    (catalog.after requests).registry.entries = catalog.registry.entries ++
      (catalog.accepted requests).map fun declaration =>
        (declaration.name, declaration.entry) := by
  induction requests generalizing catalog with
  | nil => exact (List.append_nil _).symm
  | cons request rest inductionHypothesis =>
      have later := inductionHypothesis (sound.take request)
      rw [sound.take_entries, List.append_assoc, ← List.map_append] at later
      exact later

/-- Catalogs whose registries agree reply alike, and their registries agree afterwards. -/
theorem take_alike {other : Catalog} (sound : catalog.Sound) (otherSound : other.Sound)
    (agrees : catalog.registry.Agrees other.registry) (request : Request) :
    (catalog.take request).1 = (other.take request).1 ∧
      (catalog.take request).2.registry.Agrees (other.take request).2.registry := by
  cases request with
  | declare declaration =>
      simp only [Catalog.take, Catalog.declare]
      rcases agrees.declare declaration with ⟨cause, refused, alsoRefused⟩ |
        ⟨one, another, taken, alsoTaken, agreesLater⟩
      · rw [refused, alsoRefused]
        exact ⟨rfl, agrees⟩
      · rw [taken, alsoTaken]
        exact ⟨rfl, agreesLater⟩
  | close => exact ⟨rfl, agrees.entries, agrees.distinct, rfl⟩
  | schema name =>
      obtain ⟨reply, same, _⟩ := sound.schema name
      obtain ⟨otherReply, otherSame, _⟩ := otherSound.schema name
      simp only [Catalog.take, reply, otherReply, same, otherSame, agrees.schema]
      exact ⟨trivial, agrees⟩
  | isNodeType name =>
      simp only [Catalog.take, agrees.isNodeType]
      exact ⟨trivial, agrees⟩

/-- Sound catalogs reply alike if their registries agree. -/
theorem replies_alike {other : Catalog} (sound : catalog.Sound) (otherSound : other.Sound)
    (agrees : catalog.registry.Agrees other.registry) (requests : List Request) :
    catalog.replies requests = other.replies requests := by
  induction requests generalizing catalog other with
  | nil => rfl
  | cons request rest inductionHypothesis =>
      obtain ⟨reply, agreesLater⟩ := sound.take_alike otherSound agrees request
      have later := inductionHypothesis (sound.take request) (otherSound.take request) agreesLater
      exact congrArg₂ List.cons reply later

end Sound

/-- Histories that declare the same have the same entries, in some order. -/
theorem agrees_of_same_declarations {first second : List Request}
    (same : ∀ declaration,
      declaration ∈ empty.accepted first ↔ declaration ∈ empty.accepted second)
    (closed : (empty.after first).registry.isClosed = (empty.after second).registry.isClosed) :
    (empty.after first).registry.Agrees (empty.after second).registry := by
  have distinct : ∀ requests, (empty.accepted requests).Nodup := by
    intro requests
    have names := (Sound.empty.after requests).distinct
    rw [Sound.empty.after_entries, List.map_append, List.map_map] at names
    exact (List.nodup_append.1 names).2.1.of_map
  have permuted := (List.perm_ext_iff_of_nodup (distinct first) (distinct second)).2 same
  refine ⟨?_, (Sound.empty.after first).distinct, closed⟩
  rw [Sound.empty.after_entries, Sound.empty.after_entries]
  exact (permuted.map _).append_left _

/-- A catalog replies to all that it is asked from now on as any other one does that has taken
the same declarations and is closed or open as it is. -/
theorem replies_of_same_declarations {first second : List Request}
    (same : ∀ declaration,
      declaration ∈ empty.accepted first ↔ declaration ∈ empty.accepted second)
    (closed : (empty.after first).registry.isClosed = (empty.after second).registry.isClosed)
    (requests : List Request) :
    (empty.after first).replies requests = (empty.after second).replies requests :=
  (Sound.empty.after first).replies_alike (Sound.empty.after second)
    (agrees_of_same_declarations same closed) requests

/-- An alias may come before or after the type it stands for, between refused declarations
and questions that come too early. -/
theorem replies_of_reordered :
    let leaf := Declaration.node ⟨"Leaf", nodeBase, []⟩
    let item := Declaration.alias "Item" (.named "Leaf")
    let list := Declaration.node ⟨"Row", nodeBase, [⟨"items", .sequenceOf (.named "Item"), false⟩]⟩
    let first := [Request.declare leaf, .schema "Row", .declare list, .declare item,
      .declare (.foreign "Leaf"), .close, .schema "Row"]
    let second := [Request.declare list, .declare item, .isNodeType "Leaf", .declare leaf, .close,
      .declare (.foreign "Stem"), .schema "Stem"]
    (∀ declaration, declaration ∈ empty.accepted first ↔ declaration ∈ empty.accepted second) ∧
      (empty.after first).registry.isClosed = (empty.after second).registry.isClosed ∧
      (empty.after first).replies [.schema "Row", .isNodeType "Leaf"] =
        (empty.after second).replies [.schema "Row", .isNodeType "Leaf"] := by
  intro leaf item list first second
  have inFirst : empty.accepted first = [leaf, list, item] := by cbv
  have inSecond : empty.accepted second = [list, item, leaf] := by cbv
  have same : ∀ declaration,
      declaration ∈ empty.accepted first ↔ declaration ∈ empty.accepted second := by
    intro declaration
    simp only [inFirst, inSecond, List.mem_cons, List.not_mem_nil, or_false]
    tauto
  have closed : (empty.after first).registry.isClosed = (empty.after second).registry.isClosed := by
    cbv
  exact ⟨same, closed, replies_of_same_declarations same closed _⟩

end KiwiFront.Catalog
