namespace Granularity

/-- How names end, the type of composite keys, the call that raises a warning, and the words that mark a natural key
and a warning about several dimensions. -/
structure Conventions where
  recordSuffix : String
  containerSuffix : String
  keyType : String
  warningCall : String
  naturalKeyWords : List String
  multiDimensionWords : List String
  deriving DecidableEq

def Conventions.default : Conventions where
  recordSuffix := "Row"
  containerSuffix := "Data"
  keyType := "Key"
  warningCall := "addWarning"
  naturalKeyWords := ["id", "code", "group", "channel", "category", "type", "store", "style", "sku"]
  multiDimensionWords := ["multiple", "different", "channel", "group"]

instance : Inhabited Conventions := ⟨.default⟩

end Granularity
