import Granularity.Text.Blank
import Granularity.Text.Infix
import Granularity.Text.Letter
import Granularity.Text.Lower
import Granularity.Pattern
import Granularity.Path
import Granularity.Log
import Granularity.Settings.Conventions

namespace Granularity

open Text

structure Schema where
  name : String
  path : Path
  keys : List String
  values : List String
  level : String
  deriving DecidableEq

def classPattern (suffix : String) : Pattern where
  atWordStart := false
  pieces := [.text "public".toList, .run isBlank, .text "class".toList, .run isBlank, .run isWord,
    .text suffix.toList, .run isBlank]

def className? (suffix : String) (content : List Char) : Option String :=
  match (classPattern suffix).find? content with
  | some [_, _, _, _, stem, ending, _] => some (String.ofList (stem ++ ending))
  | _ => none

def fieldPattern : Pattern where
  atWordStart := false
  pieces := [.text "private".toList, .run isBlank, .run isWord, .run isBlank, .run isWord, .text [';']]

def fieldNames (content : List Char) : List String :=
  (fieldPattern.all content).filterMap fun parts =>
    match parts with
    | [_, _, _, _, name, _] => some (String.ofList name)
    | _ => none

def isNaturalKey (words : List String) (name : String) : Bool :=
  words.any fun w => hasInfix w.toList (lower name.toList)

def Conventions.keyWords (c : Conventions) : List String :=
  (c.naturalKeyWords.filter (!·.isEmpty)).map fun w => String.ofList (lower w.toList)

def keySuffixes : List String := ["Id", "Code"]

def dimensionName (key : String) : List Char :=
  keySuffixes.foldl (fun name suffix => remove suffix.toList name) key.toList

def titleAfter (letterBefore : Bool) : List Char → List Char
  | [] => []
  | c :: rest => (if letterBefore then lowerChar c else upperChar c) ++ titleAfter (isLetter c) rest

def granularityLabel (keys : List String) : String :=
  String.ofList (titleAfter false (joinWith ['-'] (keys.map dimensionName))) ++ " Level"

namespace Schema

/-- The schema declared in a file. There is none without a record type, without a field or without a
natural key; the log says which. -/
def read (c : Conventions) (path : Path) (content : List Char) : Option Schema × Log :=
  match className? c.recordSuffix content with
  | none => (none, [Log.debug ("No record type declared in " ++ path.text)])
  | some name =>
    let fields := fieldNames content
    if fields.isEmpty then (none, [Log.debug (name ++ " declares no fields, skipping")])
    else
      let keys := fields.filter (isNaturalKey c.keyWords)
      if keys.isEmpty then (none, [Log.debug (name ++ " has no natural-key fields, skipping")])
      else
        (some {
          name, path, keys
          values := fields.filter (!isNaturalKey c.keyWords ·)
          level := granularityLabel keys }, [])

end Schema

end Granularity
