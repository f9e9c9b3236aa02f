import ApiTypings.Docs.Basic
import ApiTypings.Json.Read

/-!
# Documentation from JSON

Readers of documentation (`Docs.ofText`) and of each of its parts. A record's fields may
come in any order, fields with a default may be left out, fields of other names are
skipped, and a list of the values stands for the record as well.

Every reader takes the number of brackets that may still be opened, and is defined by
recursion on it.
-/

namespace ApiTypings

open Json

/-- A slot for a description, which may be left out; `null` stands for the empty text. -/
def descriptionSlot {ρ : Type} (put : String → ρ → ρ) : Slot ρ :=
  ⟨"description", false, readStringOrNull.map fun d => put (d.getD "")⟩

namespace ParameterDoc

/-- The slots of a parameter. -/
def slots : List (Slot ParameterDoc) :=
  [Slot.string "name" true fun name p => { p with name },
    Slot.string "type" true fun type p => { p with type }]

/-- Reads a parameter. -/
def read : (depth : Nat) → Reader ParameterDoc
  | 0 => readRecord "Parameter" {} none
  | _ + 1 => readRecord "Parameter" {} (some slots)

end ParameterDoc

namespace MethodDoc

/-- The slots of a method. -/
def slots (depth : Nat) : List (Slot MethodDoc) :=
  let overload (depth : Nat) : Reader (List ParameterDoc) :=
    readList (inside ParameterDoc.read depth)
  [Slot.string "name" true fun name m => { m with name },
    descriptionSlot fun description m => { m with description },
    Slot.list "aliases" (readStrings depth) fun aliases m => { m with aliases },
    Slot.list "parameters" (readList (inside overload depth)) fun parameters m =>
      { m with parameters },
    Slot.list "returns" (readStrings depth) fun returns m => { m with returns },
    Slot.list "children" (readList (inside readValue depth)) fun children m => { m with children },
    Slot.bool "static" fun isStatic m => { m with isStatic }]

/-- Reads a method. -/
def read : (depth : Nat) → Reader MethodDoc
  | 0 => readRecord "Method" {} none
  | depth + 1 => readRecord "Method" {} (some (slots depth))

end MethodDoc

/-- The slots of a field, given the reader of its children. -/
def FieldDoc.slots (children : Reader (List ClassDoc)) : List (Slot FieldDoc) :=
  [Slot.string "name" true fun name f => { f with name },
    descriptionSlot fun description f => { f with description },
    Slot.string "type" true fun type f => { f with type },
    Slot.bool "editable" fun editable f => { f with editable },
    Slot.list "children" children fun children f => { f with children }]

/-- The slots of a class, given the readers of its methods and fields. -/
def ClassDoc.slots (methods : Reader (List MethodDoc)) (fields : Reader (List FieldDoc)) :
    List (Slot ClassDoc) :=
  [Slot.string "name" true fun name c => { c with name },
    descriptionSlot fun description c => { c with description },
    ⟨"parent", false, readStringOrNull.map fun parent c => { c with parent }⟩,
    Slot.list "methods" methods fun methods c => { c with methods },
    Slot.list "fields" fields fun fields c => { c with fields }]

mutual

/-- Reads a class. -/
def ClassDoc.read : (depth : Nat) → Reader ClassDoc
  | 0 => readRecord "Class" {} none
  | depth + 1 =>
    readRecord "Class" {}
      (some (ClassDoc.slots (readList (inside MethodDoc.read depth)) (FieldDoc.readAll depth)))

/-- Reads a field. -/
def FieldDoc.read : (depth : Nat) → Reader FieldDoc
  | 0 => readRecord "Field" {} none
  | depth + 1 => readRecord "Field" {} (some (FieldDoc.slots (ClassDoc.readAll depth)))

/-- Reads a list of fields. -/
def FieldDoc.readAll : (depth : Nat) → Reader (List FieldDoc)
  | 0 => readList none
  | depth + 1 => readList (some (FieldDoc.read depth))

/-- Reads a list of classes. -/
def ClassDoc.readAll : (depth : Nat) → Reader (List ClassDoc)
  | 0 => readList none
  | depth + 1 => readList (some (ClassDoc.read depth))

end

namespace ListDoc

/-- The slots of a list of names. -/
def slots (depth : Nat) : List (Slot ListDoc) :=
  [Slot.string "name" true fun name l => { l with name },
    descriptionSlot fun description l => { l with description },
    Slot.list "entries" (readStrings depth) fun entries l => { l with entries }]

/-- Reads a list of names. -/
def read : (depth : Nat) → Reader ListDoc
  | 0 => readRecord "List" {} none
  | depth + 1 => readRecord "List" {} (some (slots depth))

end ListDoc

namespace Docs

/-- The slots of documentation. -/
def slots (depth : Nat) : List (Slot Docs) :=
  [⟨"globals", true, (ClassDoc.read depth).map fun globals d => { d with globals }⟩,
    ⟨"math", true, (ClassDoc.read depth).map fun math d => { d with math }⟩,
    Slot.list "lists" (readList (inside ListDoc.read depth)) fun lists d => { d with lists }]

/-- Reads documentation. -/
def read : (depth : Nat) → Reader Docs
  | 0 => readRecord "Docs" {} none
  | depth + 1 => readRecord "Docs" {} (some (slots depth))

/-- The documentation that a text holds, or what is wrong with the text. -/
def ofText (text : String) : Except Fault Docs := Json.readAll (read depthLimit) text

end Docs

end ApiTypings
