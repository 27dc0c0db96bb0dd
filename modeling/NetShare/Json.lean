import Mathlib.Data.List.TakeWhile
import Mathlib.Tactic.Common

/-!
# JSON documents

A document as the accessors of rapidjson show it.  An object keeps its members in the order of the
text; a name may occur twice, and the first one counts.
-/

namespace NetShare

/-- Numbers are `int` where `IsInt` holds of them. -/
inductive Json where
  | null
  | bool (b : Bool)
  | int (i : Int32)
  | number (text : String)
  | string (s : String)
  | array (elements : List Json)
  | object (members : List (String × Json))

/-- A `const char*` made into a `std::string`: it ends at the first NUL. -/
def cString (s : String) : String := .ofList (s.toList.takeWhile (· ≠ Char.ofNat 0))

namespace Json

def isString : Json → Bool
  | .string _ => true
  | _ => false

def isObject : Json → Bool
  | .object _ => true
  | _ => false

def isInt : Json → Bool
  | .int _ => true
  | _ => false

def isArray : Json → Bool
  | .array _ => true
  | _ => false

/-- The member of this name, if the value is an object that has it. -/
def member? : Json → String → Option Json
  | .object members, name => members.lookup name
  | _, _ => none

def string? : Json → Option String
  | .string s => some (cString s)
  | _ => none

/-- The string member of this name. -/
def stringMember? (v : Json) (name : String) : Option String := (v.member? name).bind string?

/-- The document is a request of this type on this resource. -/
def Asks (doc : Json) (type on : String) : Prop :=
  doc.stringMember? "type" = some type ∧ doc.stringMember? "on" = some on

/-- The `data.state` of a message. -/
def state? (v : Json) : Option String := (v.member? "data").bind (·.stringMember? "state")

-- `IsString` is the precondition of `GetString`.
theorem string?_eq_none_iff (v : Json) : v.string? = none ↔ v.isString = false := by
  cases v <;> simp [string?, isString]

theorem isObject_of_member? {v w : Json} {name : String} (h : v.member? name = some w) :
    v.isObject = true := by
  cases v <;> first | rfl | contradiction

end Json

end NetShare
