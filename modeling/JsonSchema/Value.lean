import JsonSchema.Members
import JsonSchema.Number

/-!
# JSON values

Objects keep their members in document order. `Value.equal` is JSON equality: member order does not
count, numbers are compared by value, and a boolean never equals a number. `Value.WellFormed` says
that no object in a value has a name twice; every value that is read is of this kind.
-/

namespace JsonSchema

inductive Value where
  | null
  | bool (value : Bool)
  | number (value : Number)
  | string (text : String)
  | array (items : List Value)
  | object (members : List (String × Value))

namespace Value

instance : Inhabited Value := ⟨.null⟩

def int (n : Int) : Value := .number (.int n)

mutual

def equal : Value → Value → Bool
  | .null, .null => true
  | .bool a, .bool b => a = b
  | .number a, .number b => a.equal b
  | .string a, .string b => a = b
  | .array as, .array bs => equalItems as bs
  | .object as, .object bs => as.length = bs.length && equalMembers as bs
  | _, _ => false

def equalItems : List Value → List Value → Bool
  | [], [] => true
  | a :: as, b :: bs => a.equal b && equalItems as bs
  | _, _ => false

def equalMembers : List (String × Value) → List (String × Value) → Bool
  | [], _ => true
  | (name, a) :: as, bs =>
    (match bs.lookup name with
      | some b => a.equal b
      | none => false) && equalMembers as bs

end

mutual

/-- Levels of nesting; a scalar and an empty container have one. -/
def depth : Value → Nat
  | .array items => depthItems items + 1
  | .object members => depthMembers members + 1
  | _ => 1

def depthItems : List Value → Nat
  | [] => 0
  | item :: rest => max item.depth (depthItems rest)

def depthMembers : List (String × Value) → Nat
  | [] => 0
  | (_, value) :: rest => max value.depth (depthMembers rest)

end

theorem depth_pos (value : Value) : 0 < value.depth := by
  cases value <;> simp [depth]

theorem depth_le_depthItems {item : Value} {items : List Value} (h : item ∈ items) :
    item.depth ≤ depthItems items := by
  induction items with
  | nil => cases h
  | cons first rest ih =>
    rw [depthItems]
    rcases List.mem_cons.mp h with rfl | hrest
    · omega
    · have := ih hrest
      omega

theorem depth_le_depthMembers {member : String × Value} {members : List (String × Value)}
    (h : member ∈ members) : member.2.depth ≤ depthMembers members := by
  induction members with
  | nil => cases h
  | cons first rest ih =>
    rw [depthMembers]
    rcases List.mem_cons.mp h with rfl | hrest
    · omega
    · have := ih hrest
      omega

mutual

/-- No object has a name twice, at any depth. -/
def WellFormed : Value → Prop
  | .array items => WellFormedItems items
  | .object members => Members.Distinct members ∧ WellFormedMembers members
  | _ => True

def WellFormedItems : List Value → Prop
  | [] => True
  | item :: rest => item.WellFormed ∧ WellFormedItems rest

def WellFormedMembers : List (String × Value) → Prop
  | [] => True
  | (_, value) :: rest => value.WellFormed ∧ WellFormedMembers rest

end

def hasDuplicates : List Value → Bool
  | [] => false
  | item :: rest => rest.any item.equal || hasDuplicates rest

def isNumber : Value → Bool
  | .number _ => true
  | _ => false

def isIntegral : Value → Bool
  | .number n => n.isIntegral
  | _ => false

/-- Whether a value counts as present: null, false, zero and what is empty do not. -/
def truthy : Value → Bool
  | .null => false
  | .bool value => value
  | .number n => !n.equal .zero
  | .string text => !text.isEmpty
  | .array items => !items.isEmpty
  | .object members => !members.isEmpty

/-- The kind of a value in reports; integers and doubles are told apart. -/
def kindName : Value → String
  | .null => "Null"
  | .bool _ => "Bool"
  | .number (.int _) => "Int"
  | .number (.float _) => "Float"
  | .string _ => "String"
  | .array _ => "Array"
  | .object _ => "Object"

end Value

end JsonSchema
