/-
# Parts in JSON

The JSON forms of parts, of their properties and of filters. The kind of a metadata value is told by its
notation alone: a truth value, a whole number of 64 bits, any other number, or a text.
-/
import OrderDesk.Catalog.Filter
import OrderDesk.Wire.Basic

namespace OrderDesk.Wire

/-! ## Properties -/

/-- Categories are their names. -/
instance : Wire Category where
  write c := .string c.name
  read := Reader.choice Category.names

instance : Wire Dimensions where
  write d := .object [
    ("length", write d.length),
    ("width", write d.width),
    ("height", write d.height),
    ("weight", write d.weight)]
  read := Fields.read <|
    Dimensions.mk <$> .required "length" read <*> .required "width" read <*>
      .required "height" read <*> .required "weight" read

instance : Wire Manufacturer where
  write m := .object [
    ("name", write m.name),
    ("country", write m.country),
    ("website", write m.website)]
  read := Fields.read <|
    Manufacturer.mk <$> .required "name" read <*> .required "country" read <*>
      .required "website" read

/-! ## Metadata -/

/-- The metadata value that a number is: whole numbers beyond 64 bits with a sign become
floating-point. -/
def metadataNumber : Number → MetadataValue
  | .int i =>
      if Int64.minValue.toInt ≤ i ∧ i ≤ Int64.maxValue.toInt then .int (Int64.ofInt i)
      else .double (Double.ofInt i)
  | .double x => .double x

/-- Reads a metadata value inside so many open arrays and objects. A value of any other shape is taken
in as a whole before it is refused. -/
def metadataValue (depth : Nat) : Reader MetadataValue
  | .scalar (.bool b) => .ok (.bool b)
  | .scalar (.number n) => .ok (metadataNumber n)
  | .scalar (.string s) => .ok (.string s)
  | d => ((d.whole depth).mapError .fault).bind fun _ => .error .wrongShape

instance : Wire MetadataValue where
  write
    | .bool b => .bool b
    | .int i => .int i.toInt
    | .double x => write x
    | .string s => .string s
  read := metadataValue 0

/-- Metadata is an object of its entries. -/
def writeMetadata (m : Metadata) : Json :=
  .object (m.entries.map fun e => (e.1, write e.2))

/-- Reads the metadata of a part, which stands inside the part and its own object. -/
def readMetadata : Reader Metadata := fun d =>
  (Reader.map (metadataValue 2) d).map Metadata.ofList

/-! ## Parts and filters -/

/-- The members of the object that a part is written as. -/
def partMembers (p : Part) : List (String × Json) := [
  ("id", write p.id),
  ("name", write p.name),
  ("description", write p.description),
  ("price", write p.price),
  ("stock_quantity", .int p.stock.toInt),
  ("category", write p.category),
  ("dimensions", writeOption p.dimensions),
  ("manufacturer", writeOption p.manufacturer),
  ("tags", writeList p.tags),
  ("metadata", writeMetadata p.metadata),
  ("created_at", write p.createdAt),
  ("updated_at", write p.updatedAt)]

/-- The description of a part. -/
def partFields : Fields Part :=
  Part.mk <$> .required "id" read <*> .required "name" read <*> .required "description" read <*>
    .required "price" read <*>
    .required "stock_quantity" (fun d => (signed64 d).map Int64.ofInt) <*>
    .required "category" read <*> .optional "dimensions" read <*>
    .optional "manufacturer" read <*> .required "tags" (Reader.list read) <*>
    .required "metadata" readMetadata <*>
    .required "created_at" read <*> .required "updated_at" read

instance : Wire Part where
  write p := .object (partMembers p)
  read := partFields.read

instance : Wire PartSnapshot where
  write s := .object [("id", write s.id), ("price", write s.price)]
  read := Fields.read <| PartSnapshot.mk <$> .required "id" read <*> .required "price" read

instance : Wire PartsFilter where
  write f := .object [
    ("ids", writeList f.ids),
    ("names", writeList f.names),
    ("categories", writeList f.categories),
    ("manufacturer_countries", writeList f.countries),
    ("tags", writeList f.tags)]
  read := Fields.read <|
    PartsFilter.mk <$> .withDefault "ids" (Reader.list read) [] <*>
      .withDefault "names" (Reader.list read) [] <*>
      .withDefault "categories" (Reader.list read) [] <*>
      .withDefault "manufacturer_countries" (Reader.list read) [] <*>
      .withDefault "tags" (Reader.list read) []

end OrderDesk.Wire
