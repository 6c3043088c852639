import Remodel.Text.Numeral

/-!
# Keys of records

A field of a model is stored under its name.  The elements of a list are stored
under the name followed by their index, the entries of a map under two keys per
index, and the name of a file beside its content.
-/

namespace Remodel.Record

/-- The key under which every record holds the domain of its connector. -/
def domainKey : String := "domainId"

/-- The key under which every record holds its connector. -/
def connectorKey : String := "connectorId"

/-- The key under which every record holds the instance of its connector. -/
def instanceKey : String := "instanceId"

/-- The key under which every record holds the type of its model. -/
def modelTypeKey : String := "modelType"

/-- The keys that every record holds, whatever its model's fields. -/
def reservedKeys : List String := [domainKey, connectorKey, instanceKey, modelTypeKey]

/-- The key of an element of a list. -/
def itemKey (key : String) (index : Nat) : String := key ++ Text.ofNat index

/-- The key of the key of a map's entry. -/
def entryKey (key : String) (index : Nat) : String := itemKey key index ++ ".key"

/-- The key of the value of a map's entry. -/
def entryValueKey (key : String) (index : Nat) : String := itemKey key index ++ ".value"

/-- The key of the name of a file. -/
def fileNameKey (key : String) : String := key ++ ".filename"

end Remodel.Record
