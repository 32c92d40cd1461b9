import WasmUdon.Listing.Row
import WasmUdon.Text.Space

/-!
# Comma-separated values

A record per line, its fields separated by commas. A field stands in quotation marks if it holds a
comma, a quotation mark or a line break, if it starts with white space, or if it is `\.`, which
some readers take for the end of the data; a quotation mark inside is written twice.
-/

namespace WasmUdon

/-- Whether a field needs quotation marks. -/
def needsQuotes (field : List Char) : Bool :=
  field == ['\\', '.'] || field.any (fun c => c == ',' || c == '"' || c == '\r' || c == '\n')
    || (field.head?.map isSpace).getD false

/-- A field as it is written. -/
def csvField (field : String) : String :=
  if needsQuotes field.toList then
    "\"" ++ String.ofList (field.toList.flatMap fun c => if c = '"' then ['"', '"'] else [c])
      ++ "\""
  else field

/-- A line of fields. -/
def csvLine (fields : List String) : String := ",".intercalate (fields.map csvField) ++ "\n"

/-- The columns of a listing. -/
def csvHeader : List String := ["count", "kind", "name", "id", "index", "offset", "size"]

/-- The fields of a row; what is missing is empty. -/
def ListingRow.csvFields (r : ListingRow) : List String :=
  [(r.count.map toString).getD "", r.kind, r.name, (r.id.map toString).getD "", toString r.index,
    toString r.offset, toString r.size]

/-- The lines of a listing, a line with the columns first. -/
def csvListing (rows : List ListingRow) : String :=
  String.join (csvLine csvHeader :: rows.map fun r => csvLine r.csvFields)

end WasmUdon
