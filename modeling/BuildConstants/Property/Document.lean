import BuildConstants.Document.Decode
import BuildConstants.Property

/-!
# Properties as documents

A single property is written as a record of its key and its value, and a property map as a table
from keys to values.
-/

namespace BuildConstants

open Document (Field RecordLayout)

namespace Property

def toDocument (p : Property) : Document :=
  .record [("key", .text p.key), ("value", .text p.value)]

def layout : RecordLayout Property :=
  { fields :=
      [Field.of "key" .nowhere Document.asText fun value p => { p with key := value },
        Field.of "value" .nowhere Document.asText fun value p => { p with value := value }]
    start := ⟨"", ""⟩
    isOpen := true }

def ofDocument (format : DocumentFormat) : Decoder Property :=
  layout.read format

end Property

namespace PropertyMap

def toDocument (m : PropertyMap) : Document :=
  .record (m.entries.map fun p => (p.key, .text p.value))

/-- Reads a table from keys to values. Of several entries with one key the last one counts. -/
def ofDocument (format : DocumentFormat) : Decoder PropertyMap
  | .table entries => do
    let properties ← entries.mapM fun (key, value) => do
      let key ← RecordLayout.fieldName format key
      pure (Property.mk key (← value.asText))
    .ok (ofList properties)
  | doc => .error doc.misfit

end PropertyMap

end BuildConstants
