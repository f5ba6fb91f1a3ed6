import DecAustrum.Python.Digits
import Mathlib.Data.List.Sort

/-!
# JSON values

The values `json` reads and writes. An object is a list of members in insertion
order; as a dictionary it has distinct keys.
-/
namespace DecAustrum.Python

/-- An IEEE 754 double by its bits. -/
structure PyFloat where
  bits : BitVec 64
  deriving DecidableEq, Repr

def PyFloat.isFinite (x : PyFloat) : Bool := x.bits.extractLsb 62 52 ≠ 0x7ff#11

inductive Json where
  | null
  | bool (b : Bool)
  | int (n : Int)
  | float (x : PyFloat)
  | str (s : Str)
  | arr (items : List Json)
  | obj (fields : List (Str × Json))

namespace Json

/-- `value.get(key)` on a dictionary. -/
def lookup (key : Str) (fields : List (Str × Json)) : Option Json :=
  (fields.find? fun field => field.1 = key).map Prod.snd

/-- `value[key]`; `none` where the value is no dictionary or lacks the key. -/
def get? (key : Str) : Json → Option Json
  | .obj fields => lookup key fields
  | _ => none

/-- `{**fields, key: value}`. -/
def assign (key : Str) (value : Json) : List (Str × Json) → List (Str × Json)
  | [] => [(key, value)]
  | (k, v) :: rest => if k = key then (k, value) :: rest else (k, v) :: assign key value rest

/-- The dictionary a sequence of members builds: a later member replaces an earlier one. -/
def toDict (fields : List (Str × Json)) : List (Str × Json) :=
  fields.foldl (fun dict field => assign field.1 field.2 dict) []

mutual

/-- Rebuilds every object as a dictionary. -/
def toDicts : Json → Json
  | .arr items => .arr (toDictsItems items)
  | .obj fields => .obj (toDict (toDictsFields fields))
  | v => v

def toDictsItems : List Json → List Json
  | [] => []
  | v :: rest => toDicts v :: toDictsItems rest

def toDictsFields : List (Str × Json) → List (Str × Json)
  | [] => []
  | (k, v) :: rest => (k, toDicts v) :: toDictsFields rest

end

/-- Members by key, as `sort_keys=True` orders them. -/
def keyLe (a b : Str × Json) : Prop := a.1 ≤ b.1

instance : DecidableRel keyLe := fun a b => inferInstanceAs (Decidable (a.1 ≤ b.1))

mutual

/-- The value with the members of every object in key order. -/
def sortKeys : Json → Json
  | .arr items => .arr (sortKeysItems items)
  | .obj fields => .obj ((sortKeysFields fields).insertionSort keyLe)
  | v => v

def sortKeysItems : List Json → List Json
  | [] => []
  | v :: rest => sortKeys v :: sortKeysItems rest

def sortKeysFields : List (Str × Json) → List (Str × Json)
  | [] => []
  | (k, v) :: rest => (k, sortKeys v) :: sortKeysFields rest

end

/-- The conversion limit of integers to and from text, in digits. -/
def withinDigitLimit (n : Int) : Bool := (decimal n.natAbs).length ≤ 4300

mutual

/-- What `json.dumps(.., allow_nan=False)` accepts. -/
def encodable : Json → Bool
  | .int n => withinDigitLimit n
  | .float x => x.isFinite
  | .arr items => encodableItems items
  | .obj fields => encodableFields fields
  | _ => true

def encodableItems : List Json → Bool
  | [] => true
  | v :: rest => encodable v && encodableItems rest

def encodableFields : List (Str × Json) → Bool
  | [] => true
  | (_, v) :: rest => encodable v && encodableFields rest

end

mutual

/-- Every object has distinct keys, as every dictionary has. -/
def uniqueKeys : Json → Bool
  | .arr items => uniqueKeysItems items
  | .obj fields => decide (fields.map Prod.fst).Nodup && uniqueKeysFields fields
  | _ => true

def uniqueKeysItems : List Json → Bool
  | [] => true
  | v :: rest => uniqueKeys v && uniqueKeysItems rest

def uniqueKeysFields : List (Str × Json) → Bool
  | [] => true
  | (_, v) :: rest => uniqueKeys v && uniqueKeysFields rest

end

mutual

/-- Every string of a value, keys included, in the order they are written. -/
def strings : Json → List Str
  | .str s => [s]
  | .arr items => stringsItems items
  | .obj fields => stringsFields fields
  | _ => []

def stringsItems : List Json → List Str
  | [] => []
  | v :: rest => strings v ++ stringsItems rest

def stringsFields : List (Str × Json) → List Str
  | [] => []
  | (k, v) :: rest => k :: (strings v ++ stringsFields rest)

end

mutual

/-- How many values lie inside one another, the value itself included. -/
def nesting : Json → Nat
  | .arr items => nestingItems items + 1
  | .obj fields => nestingFields fields + 1
  | _ => 1

def nestingItems : List Json → Nat
  | [] => 0
  | v :: rest => max (nesting v) (nestingItems rest)

def nestingFields : List (Str × Json) → Nat
  | [] => 0
  | (_, v) :: rest => max (nesting v) (nestingFields rest)

end

mutual

/-- Every key of a value, at any depth. -/
def keys : Json → List Str
  | .arr items => keysItems items
  | .obj fields => keysFields fields
  | _ => []

def keysItems : List Json → List Str
  | [] => []
  | v :: rest => keys v ++ keysItems rest

def keysFields : List (Str × Json) → List Str
  | [] => []
  | (k, v) :: rest => k :: (keys v ++ keysFields rest)

end

theorem toDictsItems_eq (items : List Json) : toDictsItems items = items.map toDicts := by
  induction items with
  | nil => rfl
  | cons v rest ih => rw [toDictsItems, ih, List.map_cons]

theorem toDictsFields_eq (fields : List (Str × Json)) :
    toDictsFields fields = fields.map fun field => (field.1, toDicts field.2) := by
  induction fields with
  | nil => rfl
  | cons field rest ih => rw [toDictsFields, ih, List.map_cons]

theorem sortKeysItems_eq (items : List Json) : sortKeysItems items = items.map sortKeys := by
  induction items with
  | nil => rfl
  | cons v rest ih => rw [sortKeysItems, ih, List.map_cons]

theorem sortKeysFields_eq (fields : List (Str × Json)) :
    sortKeysFields fields = fields.map fun field => (field.1, sortKeys field.2) := by
  induction fields with
  | nil => rfl
  | cons field rest ih => rw [sortKeysFields, ih, List.map_cons]

theorem encodableItems_iff (items : List Json) :
    encodableItems items = true ↔ ∀ v ∈ items, encodable v = true := by
  induction items with
  | nil => simp [encodableItems]
  | cons v rest ih => simp [encodableItems, ih]

theorem encodableFields_iff (fields : List (Str × Json)) :
    encodableFields fields = true ↔ ∀ field ∈ fields, encodable field.2 = true := by
  induction fields with
  | nil => simp [encodableFields]
  | cons field rest ih => simp [encodableFields, ih]

theorem uniqueKeysItems_iff (items : List Json) :
    uniqueKeysItems items = true ↔ ∀ v ∈ items, uniqueKeys v = true := by
  induction items with
  | nil => simp [uniqueKeysItems]
  | cons v rest ih => simp [uniqueKeysItems, ih]

theorem uniqueKeysFields_iff (fields : List (Str × Json)) :
    uniqueKeysFields fields = true ↔ ∀ field ∈ fields, uniqueKeys field.2 = true := by
  induction fields with
  | nil => simp [uniqueKeysFields]
  | cons field rest ih => simp [uniqueKeysFields, ih]

theorem nestingItems_le_iff (n : Nat) (items : List Json) :
    nestingItems items ≤ n ↔ ∀ v ∈ items, nesting v ≤ n := by
  induction items with
  | nil => simp [nestingItems]
  | cons v rest ih => simp [nestingItems, ih]

theorem nestingFields_le_iff (n : Nat) (fields : List (Str × Json)) :
    nestingFields fields ≤ n ↔ ∀ field ∈ fields, nesting field.2 ≤ n := by
  induction fields with
  | nil => simp [nestingFields]
  | cons field rest ih => simp [nestingFields, ih]

theorem mem_keysItems (key : Str) (items : List Json) :
    key ∈ keysItems items ↔ ∃ v ∈ items, key ∈ v.keys := by
  induction items with
  | nil => simp [keysItems]
  | cons v rest ih => simp [keysItems, ih]

theorem mem_keysFields (key : Str) (fields : List (Str × Json)) :
    key ∈ keysFields fields ↔ ∃ field ∈ fields, key = field.1 ∨ key ∈ field.2.keys := by
  induction fields with
  | nil => simp [keysFields]
  | cons field rest ih => simp [keysFields, ih, or_assoc]

/-- Induction over a value with the hypothesis at every element and every member. -/
theorem inductionOn {motive : Json → Prop} (null : motive .null) (bool : ∀ b, motive (.bool b))
    (int : ∀ n, motive (.int n)) (float : ∀ x, motive (.float x)) (str : ∀ s, motive (.str s))
    (arr : ∀ items, (∀ v ∈ items, motive v) → motive (.arr items))
    (obj : ∀ fields, (∀ field ∈ fields, motive field.2) → motive (.obj fields)) :
    ∀ v, motive v := by
  intro v
  refine @Json.rec motive (fun items => ∀ v ∈ items, motive v)
    (fun fields => ∀ field ∈ fields, motive field.2) (fun field => motive field.2)
    null bool int float str arr obj ?_ ?_ ?_ ?_ ?_ v
  · simp
  · intro head tail first rest w member
    rcases List.mem_cons.mp member with rfl | later
    · exact first
    · exact rest w later
  · simp
  · intro head tail first rest field member
    rcases List.mem_cons.mp member with rfl | later
    · exact first
    · exact rest field later
  · intro _ _ value
    exact value

end Json
end DecAustrum.Python
