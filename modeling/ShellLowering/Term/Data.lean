import ShellLowering.Term.Record
import ShellLowering.Data

namespace ShellLowering

namespace Number

def data : Number → Data
  | .int value => .int value
  | .float value => .float value
  | .flag value => .bool value

end Number

namespace Record

mutual

def data : Record → Data
  | .absent => .null
  | .number value => value.data
  | .text value => .text value
  | .endpoint value => .text value.name
  | .tuple items => .array (dataList items)
  | .node tag _ fields => .object (("type", .text tag) :: dataFields fields)

def dataList : List Record → List Data
  | [] => []
  | item :: items => item.data :: dataList items

/-- The fields of the object; an absent field is left out. -/
def dataFields : List (String × Record) → List (String × Data)
  | [] => []
  | (_, .absent) :: fields => dataFields fields
  | (name, value) :: fields => (name, value.data) :: dataFields fields

end

@[simp] theorem dataList_eq_map (items : List Record) : dataList items = items.map data := by
  induction items with
  | nil => rfl
  | cons item items ih => simp [dataList, ih]

end Record

def Term.data (term : Term) : Data :=
  term.record.data

end ShellLowering
