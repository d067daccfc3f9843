import Mathlib
import TrwMcp.Lib.Dict

/-!
# JSON values, as the Python code holds them

`json.loads` yields `None`, booleans, integers, floats, strings, lists and dicts. A dict keeps its
members in insertion order, which its `==` ignores: `Json` keeps the order (the encoder must be
shown not to depend on it) and `Json.eqv` is Python's comparison.

A Lean `String` holds Unicode scalar values, so a Python string with a lone surrogate has no
counterpart here; the encoder refuses such a string before anything is computed from it. A float is
kept by its source text: nothing computes with one, the encoder refuses them all.

Field access follows Python: `d[k]` is `Json.item`, `d.get(k)` is `Json.get`, and the exceptions
they raise are `PyErr`.
-/

namespace TrwMcp.Handoff

open Lib

/-- One L1 violation. `rule` is the spec tag (`X-8`, `R-INT-4`) or `schema`. -/
structure Finding where
  rule : String
  path : String
  message : String
  deriving DecidableEq, Repr

/-- The exceptions the modelled functions raise or catch. -/
inductive PyErr where
  | keyError (key : String)
  | typeError
  | attributeError
  | indexError
  | valueError
  | overflowError
  | jsonDecodeError
  | unicodeDecodeError
  | jcsError (message : String)
  | ahrInputError (message : String)
  | ahrParseError (finding : Finding)
  /-- No exception of Python's: the text decodes to a string this model has no value for. -/
  | loneSurrogate
  deriving DecidableEq, Repr

/-- A Python computation: a value or an exception. -/
abbrev Py := Except PyErr

inductive Json where
  | null
  | bool (b : Bool)
  | int (n : Int)
  | float (text : String)
  | str (s : String)
  | arr (items : List Json)
  | obj (members : List (String × Json))
  deriving Repr, Inhabited

namespace Json

/-! ## Structural induction

The recursor Lean generates for a nested type carries one motive a list type; this is the
principle the proofs use. -/

theorem ind {motive : Json → Prop}
    (null : motive .null) (bool : ∀ b, motive (.bool b)) (int : ∀ n, motive (.int n))
    (float : ∀ t, motive (.float t)) (str : ∀ s, motive (.str s))
    (arr : ∀ xs, (∀ x ∈ xs, motive x) → motive (.arr xs))
    (obj : ∀ ms, (∀ m ∈ ms, motive m.2) → motive (.obj ms)) : ∀ j, motive j := by
  intro j
  refine @Json.rec motive (fun xs => ∀ x ∈ xs, motive x) (fun ms => ∀ m ∈ ms, motive m.2)
    (fun m => motive m.2) null bool int float str arr obj ?_ ?_ ?_ ?_ ?_ j
  · simp
  · intro x xs hx hxs y hy
    rcases List.mem_cons.mp hy with rfl | hy
    · exact hx
    · exact hxs y hy
  · simp
  · intro m ms hm hms y hy
    rcases List.mem_cons.mp hy with rfl | hy
    · exact hm
    · exact hms y hy
  · intro _ _ h
    exact h

/-! ## Decidable equality -/

mutual

@[grind =] def decEq : (a b : Json) → Decidable (a = b)
  | .null, .null => .isTrue rfl
  | .bool a, .bool b => decidable_of_iff (a = b) (by simp)
  | .int a, .int b => decidable_of_iff (a = b) (by simp)
  | .float a, .float b => decidable_of_iff (a = b) (by simp)
  | .str a, .str b => decidable_of_iff (a = b) (by simp)
  | .arr a, .arr b => @decidable_of_iff _ (a = b) (by simp) (decEqItems a b)
  | .obj a, .obj b => @decidable_of_iff _ (a = b) (by simp) (decEqMembers a b)
  | .null, .bool _ | .null, .int _ | .null, .float _ | .null, .str _ | .null, .arr _
  | .null, .obj _ | .bool _, .null | .bool _, .int _ | .bool _, .float _ | .bool _, .str _
  | .bool _, .arr _ | .bool _, .obj _ | .int _, .null | .int _, .bool _ | .int _, .float _
  | .int _, .str _ | .int _, .arr _ | .int _, .obj _ | .float _, .null | .float _, .bool _
  | .float _, .int _ | .float _, .str _ | .float _, .arr _ | .float _, .obj _ | .str _, .null
  | .str _, .bool _ | .str _, .int _ | .str _, .float _ | .str _, .arr _ | .str _, .obj _
  | .arr _, .null | .arr _, .bool _ | .arr _, .int _ | .arr _, .float _ | .arr _, .str _
  | .arr _, .obj _ | .obj _, .null | .obj _, .bool _ | .obj _, .int _ | .obj _, .float _
  | .obj _, .str _ | .obj _, .arr _ => .isFalse (by simp)

@[grind =] def decEqItems : (a b : List Json) → Decidable (a = b)
  | [], [] => .isTrue rfl
  | [], _ :: _ => .isFalse (by simp)
  | _ :: _, [] => .isFalse (by simp)
  | x :: xs, y :: ys =>
      @decidable_of_iff _ (x = y ∧ xs = ys) (by simp)
        (@instDecidableAnd _ _ (decEq x y) (decEqItems xs ys))

@[grind =] def decEqMembers : (a b : List (String × Json)) → Decidable (a = b)
  | [], [] => .isTrue rfl
  | [], _ :: _ => .isFalse (by simp)
  | _ :: _, [] => .isFalse (by simp)
  | (k, x) :: xs, (l, y) :: ys =>
      @decidable_of_iff _ (k = l ∧ x = y ∧ xs = ys) (by simp [and_assoc])
        (@instDecidableAnd _ _ (instDecidableEqString k l)
          (@instDecidableAnd _ _ (decEq x y) (decEqMembers xs ys)))

end

instance : DecidableEq Json := decEq

/-! ## Dict access -/

/-- The members of a value that is a dict; a value of another kind has none. -/
def members : Json → List (String × Json)
  | .obj ms => ms
  | _ => []

/-- `isinstance(j, dict)`. -/
def isDict : Json → Bool
  | .obj _ => true
  | _ => false

/-- `isinstance(j, list)`. -/
def isList : Json → Bool
  | .arr _ => true
  | _ => false

/-- The entry under `k`, if `j` is a dict that has one. -/
def get? (j : Json) (k : String) : Option Json := Dict.lookup j.members k

/-- The string a value is, if it is one. -/
def str? : Json → Option String
  | .str s => some s
  | _ => none

/-- The string under `k`, if `j` is a dict that has one. -/
def getStr? (j : Json) (k : String) : Option String := (j.get? k).bind str?

/-- `k in j`, for a dict. -/
def has (j : Json) (k : String) : Bool := (j.get? k).isSome

/-- `j[k]`. -/
def item (j : Json) (k : String) : Py Json :=
  match j with
  | .obj ms => match Dict.lookup ms k with
    | some v => pure v
    | none => throw (.keyError k)
  | _ => throw .typeError

/-- `j.get(k)`. -/
def get (j : Json) (k : String) : Py (Option Json) :=
  match j with
  | .obj ms => pure (Dict.lookup ms k)
  | _ => throw .attributeError

/-- `j.get(k, {})`. -/
def getDict (j : Json) (k : String) : Py Json := do
  return (← j.get k).getD (.obj [])

/-- A value the schema has made an integer, used where Python needs one (an index, a comparison). -/
def asInt : Json → Py Int
  | .int n => pure n
  | _ => throw .typeError

/-- A value the schema has made a string, used where Python needs one (a dict key, a format). -/
def asStr : Json → Py String
  | .str s => pure s
  | _ => throw .typeError

/-- `for x in j`, for a value the schema has made a list. -/
def asList : Json → Py (List Json)
  | .arr xs => pure xs
  | _ => throw .typeError

/-- `j[k]`, a string. -/
def strItem (j : Json) (k : String) : Py String := do (← j.item k).asStr

/-- `j[k]`, an integer. -/
def intItem (j : Json) (k : String) : Py Int := do (← j.item k).asInt

/-- `j[k]`, a list. -/
def listItem (j : Json) (k : String) : Py (List Json) := do (← j.item k).asList

/-- `j.get(k, [])`, a list. -/
def listGet (j : Json) (k : String) : Py (List Json) := do
  match ← j.get k with
  | some v => v.asList
  | none => pure []

/-- `bool(j)`. -/
def truthy : Json → Bool
  | .null => false
  | .bool b => b
  | .int n => n != 0
  | .float _ => true
  | .str s => s != ""
  | .arr xs => !xs.isEmpty
  | .obj ms => !ms.isEmpty

/-- `bool(d.get(k))`, for what `get` returned. -/
def truthy? (j : Option Json) : Bool := j.any truthy

@[simp] theorem members_obj (ms : List (String × Json)) : (Json.obj ms).members = ms := rfl

@[simp] theorem item_obj_some {ms : List (String × Json)} {k : String} {v : Json}
    (h : Dict.lookup ms k = some v) : (Json.obj ms).item k = .ok v := by
  simp [item, h, pure, Except.pure]

theorem item_ok {j v : Json} {k : String} (h : j.item k = .ok v) : j.get? k = some v := by
  cases j with
  | obj ms =>
      simp only [item] at h
      split at h
      · next hv => cases h; exact hv
      · cases h
  | _ => cases h

theorem get_ok {j : Json} {k : String} {v : Option Json} (h : j.get k = .ok v) :
    j.get? k = v := by
  cases j with
  | obj ms => cases h; rfl
  | _ => cases h

theorem asStr_ok {j : Json} {s : String} (h : j.asStr = .ok s) : j = .str s := by
  cases j with
  | str t => cases h; rfl
  | _ => cases h

theorem strItem_ok {j : Json} {k s : String} (h : j.strItem k = .ok s) :
    j.get? k = some (.str s) := by
  cases hi : j.item k with
  | error e => simp [strItem, hi, bind, Except.bind] at h
  | ok v =>
      simp only [strItem, hi, bind, Except.bind] at h
      rw [item_ok hi, asStr_ok h]

theorem getStr?_of_strItem {j : Json} {k s : String} (h : j.strItem k = .ok s) :
    j.getStr? k = some s := by
  rw [getStr?, strItem_ok h]
  rfl

theorem asList_ok {j : Json} {xs : List Json} (h : j.asList = .ok xs) : j = .arr xs := by
  cases j with
  | arr ys => cases h; rfl
  | _ => cases h

theorem listItem_ok {j : Json} {k : String} {xs : List Json} (h : j.listItem k = .ok xs) :
    j.get? k = some (.arr xs) := by
  cases hi : j.item k with
  | error e => simp [listItem, hi, bind, Except.bind] at h
  | ok v =>
      simp only [listItem, hi, bind, Except.bind] at h
      rw [item_ok hi, asList_ok h]

end Json

end TrwMcp.Handoff
