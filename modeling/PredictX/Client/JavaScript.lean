import PredictX.Data.Dict

namespace PredictX.JavaScript

open PredictX.Data

/-! Values of the language that the client's code takes apart.

Finite numbers are exact rationals.
-/

inductive Number where
  | finite (value : ℚ)
  | infinite (negative : Bool)
  | nan
deriving DecidableEq, Repr

/-- `other` is an object, a function, a boolean or the like. -/
inductive Value where
  | undefined
  | null
  | number (value : Number)
  | text (value : String)
  | other
deriving DecidableEq, Repr

namespace Value

/-- `isFiniteNumber`, with the number. -/
def finite? : Value → Option ℚ
  | .number (.finite value) => some value
  | _ => none

theorem finite?_eq_some {value : Value} {number : ℚ} :
    value.finite? = some number ↔ value = .number (.finite number) := by
  cases value with
  | number value => cases value <;> simp [finite?]
  | _ => simp [finite?]

/-- `value ?? fallback`. -/
def orElse (value fallback : Value) : Value :=
  match value with
  | .undefined | .null => fallback
  | value => value

end Value

/-- The names that every object inherits from `Object.prototype`. -/
def objectMembers : List String :=
  ["constructor", "__defineGetter__", "__defineSetter__", "hasOwnProperty", "__lookupGetter__",
    "__lookupSetter__", "isPrototypeOf", "propertyIsEnumerable", "toString", "valueOf",
    "__proto__", "toLocaleString"]

/-- `record[key]`. -/
def property (record : Dict String Value) (key : String) : Value :=
  match record.get? key with
  | some value => value
  | none => if key ∈ objectMembers then .other else .undefined

end PredictX.JavaScript
