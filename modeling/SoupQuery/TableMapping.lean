import SoupQuery.Json

/-!
# The table of records

Where the records are stored: a table with a column for the JSON form of a record and a column
for its key.

* `TableMapping` — the three names, with their defaults.
* `TableMapping.ofJson?` — the names from a JSON record; a missing one has its default.
* `recordKey` — the key of a record.
-/

namespace SoupQuery

/-- The names of the table of records and of its two columns. They are written into SQL as they
stand. -/
structure TableMapping where
  table : String := "soup"
  column : String := "data"
  key : String := "key"
  deriving DecidableEq, Repr, Inhabited

def TableMapping.ofJson? (json : Json) : Option TableMapping := do
  let record ← json.record? ["soup_table", "soup_column", "key_column"]
  let standard : TableMapping := {}
  let table ← record.stringMemberD? "soup_table" standard.table
  let column ← record.stringMemberD? "soup_column" standard.column
  let key ← record.stringMemberD? "key_column" standard.key
  some ⟨table, column, key⟩

/-- What the keys of all records start with. -/
def recordKeyStart : String := "UiApi%3A%3ARecordRepresentation%3A"

def recordKey (id : String) : String := recordKeyStart ++ id

/-- The pattern that the keys of all records match. -/
def recordKeyPattern : String := "UiApi%3A%3ARecordRepresentation%"

end SoupQuery
