import BuilderControl.Files
import BuilderControl.Resource.Schemas
import BuilderControl.Schema.Decode
import BuilderControl.Yaml.Value

/-! # Buildpack orders in files

An order file is a YAML document with the entries of an order.  Only the first document counts, but
all of them have to be well formed. -/

namespace BuilderControl.Order

/-- What an order file holds; anything else in it is passed over. -/
def fileSchema : Schema :=
  Schemas.plain "OrderFile" [Schemas.defaulted "order" (.arr []) (.list Schemas.orderEntry)]

/-- The entries of an order file's document, in normal form. -/
def entries (document : Json) : List Json :=
  match document.get? "order" with
  | some (.arr entries) => entries
  | _ => []

/-- Reads the entries of an order; there has to be at least one. -/
def parse (text : String) : Except Error (List Json) := do
  let stream ← (Yaml.Stream.ofText text).mapError (.yaml ∘ .malformed)
  match stream.documents with
  | [] => throw (.invalid .emptyOrderFile)
  | root :: _ =>
    let document ← (fileSchema.decode (Yaml.source stream.anchors) ⟨root, none⟩).mapError
      (.yaml ∘ .unreadable)
    match entries document with
    | [] => throw (.invalid .noOrderEntries)
    | order => return order

/-- Reads the entries of an order from a file. -/
def ofFile (files : Files) (path : String) : Except Error (List Json) :=
  ((files.readText path).mapError .stream >>= parse).mapError (.orderFile path)

end BuilderControl.Order
