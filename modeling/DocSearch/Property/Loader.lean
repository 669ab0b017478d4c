import DocSearch.Property.Document

/-!
# Loading a schema

The document of a schema comes from a source that has a version.  A `Loader` remembers the schema it
read last together with that version, and reads again only when the version is another one
(`Loader.resolve`).  What fails leaves the remembered schema alone.

A `LoadedSchema` carries the number of the reading it is from, since callers may hold a schema for
long: whether two of them are one object shows in that number and not in their fields.
-/

namespace DocSearch

/-- What a schema source answers at some time; both of its answers may fail. -/
structure SchemaSource where
  version : Except Failure String
  body : Except Failure String

/-- The source whose document `body` never changes. -/
def SchemaSource.fixed (body : String) : SchemaSource := ⟨.ok "static", .ok body⟩

/-- A schema read from a source. -/
structure LoadedSchema where
  version : String
  schema : Schema
  /-- Which reading of the source it is from: two loaded schemas are one object iff this agrees. -/
  reading : Nat
deriving DecidableEq

/-- The schema read last, and how often the source was read. -/
structure Loader where
  cached : Option LoadedSchema
  readings : Nat
deriving DecidableEq

namespace Loader

/-- The loader that has read nothing. -/
def fresh : Loader := ⟨none, 0⟩

/-- Reads the document of `source` and remembers its schema under `version`. -/
def load (l : Loader) (version : String) (source : SchemaSource) :
    Except Failure LoadedSchema × Loader :=
  let readings := l.readings + 1
  match source.body with
  | .error e => (.error e, { l with readings })
  | .ok body =>
    match Schema.parse body with
    | .error fault => (.error (.schema fault), { l with readings })
    | .ok schema =>
      let loaded : LoadedSchema := ⟨version, schema, readings⟩
      (.ok loaded, ⟨some loaded, readings⟩)

/-- The current schema of `source`: the remembered one if the version is still the same. -/
def resolve (l : Loader) (source : SchemaSource) : Except Failure LoadedSchema × Loader :=
  match source.version with
  | .error e => (.error e, l)
  | .ok version =>
    match l.cached with
    | some loaded => if loaded.version = version then (.ok loaded, l) else l.load version source
    | none => l.load version source

end Loader

end DocSearch
