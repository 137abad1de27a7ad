import Granularity.Text.Line
import Granularity.Schema

/-!
Containers: maps with a composite key. A declaration names the type of the values and the variable;
the dimensions of the key are the arguments of the first key put into that variable.
-/

namespace Granularity

open Text

structure Container where
  name : String
  path : Path
  line : Nat
  components : List String
  owner : String
  deriving DecidableEq

def unknownName : String := "Unknown"

def mapPattern (keyType : String) : Pattern where
  atWordStart := false
  pieces := [.text "Map<".toList, .text keyType.toList, .text [','], .gap isBlank, .run isWord, .text ['>'],
    .run isBlank, .run isWord]

def isInLine (c : Char) : Bool := c != '\n'

def putPieces (keyType : String) : List Piece :=
  [.text ".put(".toList, .gap isBlank, .text "new".toList, .run isBlank, .text keyType.toList, .text ['('],
    .upTo isInLine, .text [')']]

def constructionPattern (keyType : String) : Pattern where
  atWordStart := true
  pieces := .run isWord :: putPieces keyType

def arguments (run : List Char) : List String :=
  (((splitAt ',' run).map trim).filter (!·.isEmpty)).map String.ofList

def constructionOfParts? (parts : List (List Char)) : Option (String × List Char) :=
  match parts with
  | [name, _, _, _, _, _, _, run, _] => some (String.ofList name, run)
  | _ => none

def constructions (keyType : String) (content : List Char) : List (String × List Char) :=
  ((constructionPattern keyType).all content).filterMap constructionOfParts?

def keyComponents? (keyType : String) (content : List Char) (name : String) : Option (List String) :=
  ((constructions keyType content).find? (·.1 == name)).map fun c => arguments c.2

def mapDeclaration? (keyType : String) (line : List Char) : Option (String × String) :=
  match (mapPattern keyType).find? line with
  | some [_, _, _, _, valueType, _, _, name] => some (String.ofList valueType, String.ofList name)
  | _ => none

namespace Container

/-- What one line declares, with the type of the values. A declaration whose key is nowhere
constructed is only logged. -/
def readLine (c : Conventions) (path : Path) (content : List Char) (owner : String) (line : List Char × Nat) :
    Option (String × Container) × Log :=
  match mapDeclaration? c.keyType line.1 with
  | none => (none, [])
  | some (valueType, name) =>
    match keyComponents? c.keyType content name with
    | some components => (some (valueType, { name, path, line := line.2, components, owner }), [])
    | none =>
      (none, [Log.debug (path.text ++ ":" ++ toString line.2 ++ " map '" ++ name ++
        "' has no key construction, skipping")])

def read (c : Conventions) (path : Path) (content : List Char) : List (String × Container) × Log :=
  let owner := (className? c.containerSuffix content).getD unknownName
  let found := (numberedLines content).map (readLine c path content owner)
  (found.filterMap Prod.fst, found.flatMap Prod.snd)

end Container

end Granularity
