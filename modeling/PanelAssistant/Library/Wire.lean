import Mathlib.Data.Rat.Defs
import Mathlib.Data.String.Basic
import Mathlib.Order.Basic

/-!
# Decoded JSON with floats

A decoded document as an untyped program holds it. A finite float is its exact value, so
that an integer and a float compare exactly.
-/

namespace Library

/-- A float: its exact value, an infinity or not a number. -/
inductive Float64 where
  | finite (value : Rat)
  | infinite (negative : Bool)
  | notANumber
  deriving DecidableEq

inductive Wire where
  | null
  | bool (b : Bool)
  | int (n : Int)
  | float (x : Float64)
  | str (s : String)
  | arr (items : List Wire)
  | obj (fields : List (String × Wire))

namespace Wire

instance : Inhabited Wire := ⟨null⟩

/-- `d[key]`, where the key is there. -/
def field? : List (String × Wire) → String → Option Wire
  | [], _ => none
  | (k, v) :: rest, key => if k = key then some v else field? rest key

/-- `d.get(key)` -/
def get (fields : List (String × Wire)) (key : String) : Wire := (field? fields key).getD null

/-- The exact value of a number that is finite. -/
def number? : Wire → Option Rat
  | int n => some n
  | float (.finite q) => some q
  | _ => none

def str? : Wire → Option String
  | str s => some s
  | _ => none

def bool? : Wire → Option Bool
  | bool b => some b
  | _ => none

def isNull : Wire → Bool
  | null => true
  | _ => false

@[simp] theorem field?_nil (key : String) : field? [] key = none := rfl

@[simp] theorem field?_cons (k : String) (v : Wire) (rest : List (String × Wire)) (key : String) :
    field? ((k, v) :: rest) key = if k = key then some v else field? rest key := rfl

theorem field?_append (fields fields' : List (String × Wire)) (key : String) :
    field? (fields ++ fields') key = (field? fields key).or (field? fields' key) := by
  induction fields with
  | nil => rfl
  | cons f rest ih =>
    obtain ⟨k, v⟩ := f
    by_cases h : k = key
    · simp [h]
    · simp [h, ih]

end Wire

end Library
