import ShellLowering.Term.Record
import ShellLowering.Text.Quoted

namespace ShellLowering

namespace Endpoint

/-- The written form: the family and the name in capitals. -/
def display (e : Endpoint) : String :=
  .join ["Stream.", e.name.map Char.toUpper]

/-- The detailed form adds the quoted name. -/
def detail (e : Endpoint) : String :=
  .join ["<", e.display, ": ", Text.quoted e.name, ">"]

end Endpoint

/-- A tuple of one item keeps a comma. -/
def tupleText : List String → String
  | [item] => .join ["(", item, ",)"]
  | items => .join ["(", ", ".intercalate items, ")"]

namespace Record

mutual

/-- The detailed form of a record. There is none if an integer in it has too many digits. -/
def detail? : Record → Option String
  | .absent => some Text.absentWord
  | .number value => value.text?
  | .text value => some (Text.quoted value)
  | .endpoint value => some value.detail
  | .tuple items => (details? items).map tupleText
  | .node _ name fields =>
    (fieldDetails? fields).map fun details => .join [name, "(", ", ".intercalate details, ")"]

def details? : List Record → Option (List String)
  | [] => some []
  | item :: items => do return (← item.detail?) :: (← details? items)

def fieldDetails? : List (String × Record) → Option (List String)
  | [] => some []
  | (name, value) :: fields => do
    let detail ← value.detail?
    return .join [name, "=", detail] :: (← fieldDetails? fields)

end

end Record

namespace Term

/-- The detailed form, in which texts are quoted. -/
def detail? (term : Term) : Option String :=
  term.record.detail?

mutual

/-- The written form: a text is itself, and a call shows its head and its arguments. -/
def display? : Term → Option String
  | .text value => some value
  | .endpoint value => some value.display
  | .form head args =>
    (displays? args).map fun texts => .join ["(", " ".intercalate (head :: texts), ")"]
  | term => term.detail?

def displays? : List Term → Option (List String)
  | [] => some []
  | term :: terms => do return (← term.display?) :: (← displays? terms)

end

@[simp] theorem displays?_eq_mapM (terms : List Term) : displays? terms = terms.mapM display? := by
  induction terms with
  | nil => rfl
  | cons term terms ih => rw [displays?, ih, List.mapM_cons]

end Term
end ShellLowering
