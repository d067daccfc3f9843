import TrwMcp.Handoff.Jcs
import TrwMcp.Lib.Regex

/-!
# The AHR schema

The keywords of JSON Schema 2020-12 that the packaged schema uses, with the errors
`Draft202012Validator.iter_errors` reports for them in its order, and the packaged schema itself,
`ahrSchema`, definition by definition. A `$ref` is the definition it names. A schema is the list of
its keywords, in the order the file has them; titles and descriptions say nothing about a value.
-/

namespace TrwMcp.Handoff

open Lib.Regex (Pattern)

/-! ## Keywords -/

inductive Keyword where
  | type (name : String)
  | required (names : List String)
  | properties (props : List (String × List Keyword))
  /-- `"additionalProperties": false`, next to `properties` of these names -/
  | closed (names : List String)
  | items (schema : List Keyword)
  | minItems (n : Nat)
  | maxItems (n : Nat)
  | uniqueItems
  | minLength (n : Nat)
  | maxLength (n : Nat)
  | pattern (m : Pattern)
  | minimum (n : Int)
  | maximum (n : Int)
  | enum (values : List Json)
  | const (value : Json)
  | oneOf (schemas : List (List Keyword))
  | allOf (schemas : List (List Keyword))
  | not (schema : List Keyword)
  | ifThenElse (cond then_ else_ : List Keyword)
  | propertyNames (schema : List Keyword)

abbrev Schema := List Keyword

/-- One step of the path to a value inside a document. -/
inductive Seg where
  | key (k : String)
  | index (i : Nat)
  deriving DecidableEq, Repr

def Seg.text : Seg → String
  | .key k => k
  | .index i => toString i

/-- An error: where, and the keyword that failed. -/
structure SchemaError where
  path : List Seg
  validator : String
  deriving DecidableEq, Repr

def SchemaError.under (seg : Seg) (e : SchemaError) : SchemaError := { e with path := seg :: e.path }

/-- One error of `validator` at the value itself, when `bad`. -/
def failing (bad : Bool) (validator : String) : List SchemaError :=
  if bad then [⟨[], validator⟩] else []

section

variable (lib : Stdlib)

/-- `is_type`. -/
def hasType (name : String) (j : Json) : Bool :=
  match name, j with
  | "object", .obj _ | "array", .arr _ | "string", .str _ | "boolean", .bool _ => true
  | "integer", .int _ => true
  | "integer", .float text => lib.floatIsInteger text
  | _, _ => false

/-- How a number compares with `n`; a value of another type does not. -/
def compareNumber (j : Json) (n : Int) : Option Ordering :=
  match j with
  | .int m => some (compare m n)
  | .float text => lib.floatCompare text n
  | _ => none

/-- No two items are equal. -/
@[grind =] def allDistinct : List Json → Bool
  | [] => true
  | x :: xs => !xs.any (x.eqv ·) && allDistinct xs

mutual

/-- The errors of one keyword. -/
@[grind =] def Keyword.errors : Keyword → Json → List SchemaError
  | .type name, j => failing (!hasType lib name j) "type"
  | .required names, j =>
      if j.isDict then names.flatMap fun n => failing (!j.has n) "required" else []
  | .properties props, j => if j.isDict then propertyErrors props j else []
  | .closed names, j =>
      failing (j.members.any fun m => !names.contains m.1) "additionalProperties"
  | .items schema, .arr xs =>
      xs.zipIdx.flatMap fun (x, i) => (schemaErrors schema x).map (.under (.index i))
  | .items _, _ => []
  | .minItems n, .arr xs => failing (xs.length < n) "minItems"
  | .minItems _, _ => []
  | .maxItems n, .arr xs => failing (n < xs.length) "maxItems"
  | .maxItems _, _ => []
  | .uniqueItems, .arr xs => failing (!allDistinct xs) "uniqueItems"
  | .uniqueItems, _ => []
  | .minLength n, .str s => failing (s.length < n) "minLength"
  | .minLength _, _ => []
  | .maxLength n, .str s => failing (n < s.length) "maxLength"
  | .maxLength _, _ => []
  | .pattern m, .str s => failing (!Lib.Regex.search m s) "pattern"
  | .pattern _, _ => []
  | .minimum n, j => failing (compareNumber lib j n == some .lt) "minimum"
  | .maximum n, j => failing (compareNumber lib j n == some .gt) "maximum"
  | .enum values, j => failing (!values.any (j.eqv ·)) "enum"
  | .const value, j => failing (!j.eqv value) "const"
  | .oneOf schemas, j =>
      let valid := (branchErrors schemas j).countP (·.isEmpty)
      failing (valid != 1) "oneOf"
  | .allOf schemas, j => (branchErrors schemas j).flatten
  | .not schema, j => failing (schemaErrors schema j).isEmpty "not"
  | .ifThenElse cond then_ else_, j =>
      if (schemaErrors cond j).isEmpty then schemaErrors then_ j else schemaErrors else_ j
  | .propertyNames schema, j => j.members.flatMap fun m => schemaErrors schema (.str m.1)

/-- `iter_errors`. -/
@[grind =] def schemaErrors : List Keyword → Json → List SchemaError
  | [], _ => []
  | k :: ks, j => k.errors j ++ schemaErrors ks j

@[grind =] def propertyErrors : List (String × List Keyword) → Json → List SchemaError
  | [], _ => []
  | (name, schema) :: props, j =>
      (match j.get? name with
        | some v => (schemaErrors schema v).map (.under (.key name))
        | none => []) ++ propertyErrors props j

/-- The errors of each branch by itself. -/
@[grind =] def branchErrors : List (List Keyword) → Json → List (List SchemaError)
  | [], _ => []
  | schema :: schemas, j => schemaErrors schema j :: branchErrors schemas j

end

end

end TrwMcp.Handoff
