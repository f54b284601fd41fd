import ConcordBft.Lib.Checked
import ConcordBft.Lib.OrderedMap
import Mathlib.Data.String.Basic

set_option autoImplicit false

/-! # JSON objects (`tests/membership_service/jsonxx.h`, `jsonxx.cc`)

Strings are byte strings, with a character for each byte. A number is the text that `json()` prints
for it, since nothing calculates with numbers. An object is the list of its entries as `std::map`
keeps them.

`get` fails an assertion if the key is missing or its value has another type (`JSONXX_ASSERT`). `json()`
prints an entry with an empty key without the key, so that its text is JSON only if there is no such
key (`noEmptyKeys`). -/

namespace ConcordBft.MembershipService

open Checked OrderedMap

/-- A JSON value; a number is kept as its text. -/
inductive Value where
  | number (text : String)
  | string (s : String)
  | boolean (b : Bool)
  | null
  | array (values : List Value)
  | object (kvMap : List (String × Value))
deriving Repr

/-- The entries of an object. -/
abbrev Object := List (String × Value)

/-- What keeps `execute` from returning. -/
inductive Fault where
  /-- `JSONXX_ASSERT` -/
  | assertion
  /-- `queue.front()` of an empty queue. -/
  | emptyQueue
  /-- The loop has not ended with the given fuel. -/
  | outOfFuel
deriving DecidableEq, Repr

/-! ## Lookups -/

namespace Value

/-- The string that a value is. -/
def asString : Value → Option String
  | .string s => some s
  | _ => none

/-- The object that a value is. -/
def asObject : Value → Option Object
  | .object o => some o
  | _ => none

def asArray : Value → Option (List Value)
  | .array vs => some vs
  | _ => none

end Value

namespace Object

/-- The value of a key. -/
def find? (o : Object) (key : String) : Option Value := (List.find? (fun e => e.1 == key) o).map (·.2)

variable (o : Object) (key : String)

/-- `has<T>(key)`, with the value. -/
def string? : Option String := (find? o key).bind Value.asString

/-- The object of a key. -/
def object? : Option Object := (find? o key).bind Value.asObject

/-- The array of a key. -/
def array? : Option (List Value) := (find? o key).bind Value.asArray

end Object

/-- `JSONXX_ASSERT(has<T>(key))` -/
def asserted {α : Type} : Option α → Except Fault α
  | some a => .ok a
  | none => .error .assertion

namespace Object

variable (o : Object) (key : String)

/-- `get<String>(key)` -/
def getString : Except Fault String := asserted (o.string? key)

/-- `get<Object>(key)` -/
def getObject : Except Fault Object := asserted (o.object? key)

/-- `get<Array>(key)` -/
def getArray : Except Fault (List Value) := asserted (o.array? key)

/-- `o << key << value`, for a key that is not empty or a value that is an object. -/
def set (value : Value) : Object := OrderedMap.insertEntry key value o

end Object

theorem asserted_eq_ok {α : Type} {x : Option α} {a : α} : asserted x = .ok a ↔ x = some a := by
  cases x with
  | none | some b => simp [asserted]

theorem asserted_bind_eq_ok {α β : Type} {x : Option α} {f : α → Except Fault β} {b : β} :
    asserted x >>= f = .ok b ↔ ∃ a, x = some a ∧ f a = .ok b := by
  cases x with
  | none =>
    show (Except.error Fault.assertion : Except Fault β) = .ok b ↔ _
    simp
  | some a =>
    show f a = .ok b ↔ _
    simp

@[simp]
theorem asserted_some_bind {α β : Type} (a : α) (f : α → Except Fault β) :
    asserted (some a) >>= f = f a := rfl

section

variable (o : Object) (key : String) (value : Value) (key' : String)
include o key value key'

theorem Object.find?_set :
    Object.find? (o.set key value) key' = if key' = key then some value else Object.find? o key' := by
  unfold Object.set Object.find?
  by_cases hkey : key' = key
  · subst hkey
    rw [if_pos rfl]
    induction o with
    | nil => simp [insertEntry]
    | cons e rest ih =>
      unfold insertEntry
      split_ifs with hlt hgt
      · simp
      · rw [List.find?_cons_of_neg (by simpa using ne_of_lt hgt), ih]
      · simp
  · rw [if_neg hkey]
    have hnew : ∀ l, List.find? (fun e => e.1 == key') ((key, value) :: l) =
        List.find? (fun e => e.1 == key') l := fun l =>
      List.find?_cons_of_neg (by simpa using Ne.symm hkey)
    induction o with
    | nil => rw [insertEntry, hnew]
    | cons e rest ih =>
      unfold insertEntry
      split_ifs with hlt hgt
      · rw [hnew]
      · by_cases he : e.1 = key'
        · rw [List.find?_cons_of_pos (by simpa using he), List.find?_cons_of_pos (by simpa using he)]
        · rw [List.find?_cons_of_neg (by simpa using he), ih,
            List.find?_cons_of_neg (by simpa using he)]
      · have heq : key = e.1 := le_antisymm (not_lt.1 hgt) (not_lt.1 hlt)
        rw [hnew, List.find?_cons_of_neg (by simpa [← heq] using Ne.symm hkey)]

theorem Object.string?_set : Object.string? (o.set key value) key' =
      if key' = key then value.asString else Object.string? o key' := by
  rw [Object.string?, Object.find?_set]
  split_ifs
  · rfl
  · rfl

theorem Object.object?_set : Object.object? (o.set key value) key' =
      if key' = key then value.asObject else Object.object? o key' := by
  rw [Object.object?, Object.find?_set]
  split_ifs
  · rfl
  · rfl

end

/-! ## Text -/

/-- A digit of an escaped character. -/
def hexDigit (n : ℕ) : Char := "0123456789abcdef".toList.getD n '0'

/-- `escape_string`, for a byte. -/
def escapeChar (c : Char) : List Char :=
  match c with
  | '"' => ['\\', '"']
  | '\\' => ['\\', '\\']
  | '/' => ['\\', '/']
  | '\x08' => ['\\', 'b']
  | '\x0c' => ['\\', 'f']
  | '\n' => ['\\', 'n']
  | '\r' => ['\\', 'r']
  | '\t' => ['\\', 't']
  | c =>
    if c.toNat < 32 then
      ['\\', 'u', '0', '0', hexDigit (c.toNat / 16), hexDigit (c.toNat % 16)]
    else [c]

/-- The characters of a string, escaped. -/
def escapeString (s : String) : List Char := s.toList.flatMap escapeChar

/-- `remove_last_comma` -/
def removeLastComma (input : List Char) : List Char :=
  if 2 < input.length ∧ input[input.length - 2]? = some ',' then input.set (input.length - 2) ' '
  else input

/-- The indentation and the key of a value; an empty key is left out. -/
def tagName (depth : ℕ) (name : String) : List Char :=
  List.replicate depth '\t' ++
    if name.isEmpty then [] else ['"'] ++ escapeString name ++ ['"', ':', ' ']

mutual

/-- `json::tag` -/
def tag (depth : ℕ) (name : String) : Value → List Char
  | .null => tagName depth name ++ ['n', 'u', 'l', 'l', ',', '\n']
  | .boolean b =>
    tagName depth name ++ (if b then "true" else "false").toList ++ [',', '\n']
  | .array values =>
    removeLastComma (tagName depth name ++ ['[', '\n'] ++ tagValues (depth + 1) values) ++
      List.replicate depth '\t' ++ [']', ',', '\n']
  | .string s => tagName depth name ++ ['"'] ++ escapeString s ++ ['"', ',', '\n']
  | .object kvMap =>
    removeLastComma (tagName depth name ++ ['\x7b', '\n'] ++ tagEntries (depth + 1) kvMap) ++
      List.replicate depth '\t' ++ ['\x7d', ',', '\n']
  | .number text => tagName depth name ++ text.toList ++ [',', '\n']

/-- The lines of the elements of an array. -/
def tagValues (depth : ℕ) : List Value → List Char
  | [] => []
  | v :: values => tag depth "" v ++ tagValues depth values

/-- The lines of the entries of an object. -/
def tagEntries (depth : ℕ) : List (String × Value) → List Char
  | [] => []
  | (key, v) :: kvMap => tag depth key v ++ tagEntries depth kvMap

end

/-- `Object::json` -/
def Object.json (o : Object) : List Char := removeLastComma (tag 0 "" (.object o))

mutual

/-- No object inside has an empty key. -/
def Value.noEmptyKeys : Value → Bool
  | .array values => noEmptyKeysIn values
  | .object kvMap => noEmptyKeysOf kvMap
  | .null | .boolean _ | .string _ | .number _ => true

/-- The same for the elements of an array. -/
def noEmptyKeysIn : List Value → Bool
  | [] => true
  | v :: values => v.noEmptyKeys && noEmptyKeysIn values

/-- The same for the entries of an object. -/
def noEmptyKeysOf : List (String × Value) → Bool
  | [] => true
  | (key, v) :: kvMap => !key.isEmpty && v.noEmptyKeys && noEmptyKeysOf kvMap

end

/-- The text of the object is JSON: no object in it has an empty key. -/
def Object.noEmptyKeys (o : Object) : Bool := noEmptyKeysOf o

theorem Object.noEmptyKeys_iff {o : Object} :
    Object.noEmptyKeys o = true ↔ ∀ e ∈ o, e.1 ≠ "" ∧ e.2.noEmptyKeys = true := by
  unfold Object.noEmptyKeys
  induction o with
  | nil => simp [noEmptyKeysOf]
  | cons e rest ih =>
    rw [noEmptyKeysOf, Bool.and_eq_true, ih]
    simp

theorem Object.noEmptyKeys_set {o : Object} {key : String} {value : Value}
    (ho : Object.noEmptyKeys o = true) (hkey : key ≠ "") (hvalue : value.noEmptyKeys = true) :
    Object.noEmptyKeys (o.set key value) = true := by
  rw [Object.noEmptyKeys_iff] at ho ⊢
  intro e he
  rcases mem_insertEntry_of he with rfl | he
  · exact ⟨hkey, hvalue⟩
  · exact ho e he

end ConcordBft.MembershipService
