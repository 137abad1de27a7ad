import Granularity.Index
import Granularity.Schema
import Granularity.Container
import Granularity.Accessor
import Granularity.WarningSite

namespace Granularity

structure Models where
  schemas : Index Schema
  containers : Index (List Container)
  accessors : Index (List Accessor)
  warnings : List WarningSite
  deriving DecidableEq

instance : Inhabited Models := ⟨⟨.empty, .empty, .empty, []⟩⟩

namespace Models

def schemaCount (m : Models) : Nat :=
  m.schemas.size

def containerCount (m : Models) : Nat :=
  m.containers.values.flatten.length

def accessorCount (m : Models) : Nat :=
  m.accessors.values.flatten.length

def containersOf (m : Models) (typeName : String) : List Container :=
  (m.containers.get? typeName).getD []

def schemaGroups (m : Models) : List (Schema × List Container) :=
  (m.schemas.values.map fun s => (s, m.containersOf s.name)).filter (!·.2.isEmpty)

def accessorGroups (m : Models) : List (String × List Accessor × List Container) :=
  (m.accessors.entries.map fun e => (e.1, e.2, m.containersOf e.1)).filter (!·.2.2.isEmpty)

end Models

/-- The schemas by name. Of two with one name the later stays, and the log says so. -/
def indexSchemas (found : List Schema) : Index Schema × Log :=
  found.foldl
    (fun (index, log) s =>
      (index.insert s.name s,
        match index.get? s.name with
        | some old =>
          log ++ [Log.warn ("Record " ++ s.name ++ " declared in both " ++ old.path.text ++
            " and a later file; keeping the later one")]
        | none => log))
    (.empty, [])

end Granularity
