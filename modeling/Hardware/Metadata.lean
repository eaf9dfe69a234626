import Hardware.Error

/-!
Descriptive metadata of a module, and the attributes of the record that it becomes.
-/
namespace Hardware

/-- Where the sources of a module are kept. -/
structure Provenance where
  repo : String
  commit : String
  deriving DecidableEq, Repr

structure Metadata where
  name : Option String := none
  repo : Option String := none
  commitHash : Option String := none
  version : Option String := none
  summary : Option String := none
  misc : OrderedMap Ident Attr := .empty
  deriving DecidableEq, Repr

namespace Metadata

/-- Keys that the named fields stand for. -/
def reservedKeys : List Ident :=
  ["symbolRef", "name", "repo", "commitHash", "commit_hash", "version", "summary"]

/-- Fails if a further entry shadows a named field. -/
def validate (m : Metadata) : Except Error Unit :=
  match m.misc.keys.filter fun k => reservedKeys.contains k with
  | [] => pure ()
  | shadowed => throw (.declaration (.shadowedMetadata shadowed))

/-- Fill in a name and a summary where none is given. -/
def withDefaults (m : Metadata) (name : String) (summary : Option String) : Metadata :=
  { m with name := m.name <|> some name, summary := m.summary <|> summary }

/-- Fill in the provenance that was found, if neither part of it is given. -/
def withProvenance (m : Metadata) (found : Option Provenance) : Metadata :=
  match m.repo, m.commitHash, found with
  | none, none, some p => { m with repo := some p.repo, commitHash := some p.commit }
  | _, _, _ => m

/-- The attributes of the metadata record: the fields that are set, then the other entries. -/
def toAttributes (m : Metadata) : Attributes :=
  let named : List (Ident × Option String) :=
    [("name", m.name), ("repo", m.repo), ("commitHash", m.commitHash), ("version", m.version),
      ("summary", m.summary)]
  .ofList (named.filterMap (fun (k, v) => v.map fun s => (k, Attr.str s)) ++ m.misc.entries)

end Metadata

end Hardware
