import Mathlib.Data.List.Sort
import Mathlib.Data.String.Basic
import Mathlib.Order.Basic

/-!
# JSON documents

Documents as a parser returns them, without floating-point numbers: the fields of an
object stay in document order. `compact` and `pretty` are the two texts a document is
written as, restricted to ASCII; `sortKeys` orders the fields of every object, so that
`compact (sortKeys d)` is a canonical text of `d`.
-/

namespace Library

/-- A JSON document without floats. -/
inductive Json where
  | null
  | bool (b : Bool)
  | int (n : Int)
  | str (s : String)
  | arr (items : List Json)
  | obj (fields : List (String × Json))

namespace Json

instance : Inhabited Json := ⟨null⟩

/-- The value of a field, as a dictionary lookup reads it. -/
def field? : List (String × Json) → String → Option Json
  | [], _ => none
  | (k, v) :: rest, key => if k = key then some v else field? rest key

/-- Whether the field names are exactly `names`, in any order. -/
def keysAre (fields : List (String × Json)) (names : List String) : Bool :=
  fields.all (fun f => names.contains f.1) && names.all fun n => (field? fields n).isSome

mutual

/-- Structural equality; objects are compared in document order. -/
def beq : Json → Json → Bool
  | null, null => true
  | bool b, bool b' => b == b'
  | int n, int n' => n == n'
  | str s, str s' => s == s'
  | arr items, arr items' => beqItems items items'
  | obj fields, obj fields' => beqFields fields fields'
  | _, _ => false

def beqItems : List Json → List Json → Bool
  | [], [] => true
  | a :: rest, b :: rest' => beq a b && beqItems rest rest'
  | _, _ => false

def beqFields : List (String × Json) → List (String × Json) → Bool
  | [], [] => true
  | (k, a) :: rest, (k', b) :: rest' => k == k' && beq a b && beqFields rest rest'
  | _, _ => false

end

instance : BEq Json := ⟨beq⟩

mutual

theorem eq_of_beq : (a b : Json) → beq a b = true → a = b
  | null, b, h => by cases b <;> simp_all [beq]
  | bool _, b, h => by cases b <;> simp_all [beq]
  | int _, b, h => by cases b <;> simp_all [beq]
  | str _, b, h => by cases b <;> simp_all [beq]
  | arr items, b, h => by
    cases b with
    | arr items' => rw [eq_of_beqItems items items' (by simpa [beq] using h)]
    | _ => simp [beq] at h
  | obj fields, b, h => by
    cases b with
    | obj fields' => rw [eq_of_beqFields fields fields' (by simpa [beq] using h)]
    | _ => simp [beq] at h

theorem eq_of_beqItems : (a b : List Json) → beqItems a b = true → a = b
  | [], b, h => by cases b <;> simp_all [beqItems]
  | a :: rest, b, h => by
    cases b with
    | nil => simp [beqItems] at h
    | cons a' rest' =>
      simp only [beqItems, Bool.and_eq_true] at h
      rw [eq_of_beq a a' h.1, eq_of_beqItems rest rest' h.2]

theorem eq_of_beqFields : (a b : List (String × Json)) → beqFields a b = true → a = b
  | [], b, h => by cases b <;> simp_all [beqFields]
  | (k, a) :: rest, b, h => by
    cases b with
    | nil => simp [beqFields] at h
    | cons f rest' =>
      obtain ⟨k', a'⟩ := f
      simp only [beqFields, Bool.and_eq_true, beq_iff_eq] at h
      rw [h.1.1, eq_of_beq a a' h.1.2, eq_of_beqFields rest rest' h.2]

end

mutual

theorem beq_self : (a : Json) → beq a a = true
  | null => rfl
  | bool b => by simp [beq]
  | int n => by simp [beq]
  | str s => by simp [beq]
  | arr items => beqItems_self items
  | obj fields => beqFields_self fields

theorem beqItems_self : (a : List Json) → beqItems a a = true
  | [] => rfl
  | a :: rest => by simp [beqItems, beq_self a, beqItems_self rest]

theorem beqFields_self : (a : List (String × Json)) → beqFields a a = true
  | [] => rfl
  | (k, a) :: rest => by simp [beqFields, beq_self a, beqFields_self rest]

end

instance : LawfulBEq Json where
  eq_of_beq h := eq_of_beq _ _ h
  rfl := beq_self _

/-! ## Texts -/

def hexDigit (n : Nat) : Char :=
  if n < 10 then Char.ofNat ('0'.toNat + n) else Char.ofNat ('a'.toNat + (n - 10))

/-- A UTF-16 code unit as `\uXXXX`. -/
def unitEscape (n : Nat) : List Char :=
  ['\\', 'u', hexDigit (n / 4096 % 16), hexDigit (n / 256 % 16), hexDigit (n / 16 % 16),
    hexDigit (n % 16)]

/-- One character inside a string literal, restricted to printable ASCII. -/
def escapeChar (c : Char) : List Char :=
  if c = '"' then ['\\', '"']
  else if c = '\\' then ['\\', '\\']
  else if c = '\n' then ['\\', 'n']
  else if c = '\r' then ['\\', 'r']
  else if c = '\t' then ['\\', 't']
  else if c.toNat = 12 then ['\\', 'f']
  else if c.toNat = 8 then ['\\', 'b']
  else if 32 ≤ c.toNat ∧ c.toNat ≤ 126 then [c]
  else if c.toNat < 65536 then unitEscape c.toNat
  else unitEscape (55296 + (c.toNat - 65536) / 1024) ++
    unitEscape (56320 + (c.toNat - 65536) % 1024)

def quote (s : String) : List Char := '"' :: s.toList.flatMap escapeChar ++ ['"']

mutual

/-- The text without optional white space. -/
def compact : Json → List Char
  | null => ['n', 'u', 'l', 'l']
  | bool true => ['t', 'r', 'u', 'e']
  | bool false => ['f', 'a', 'l', 's', 'e']
  | int n => (toString n).toList
  | str s => quote s
  | arr items => '[' :: compactItems items ++ [']']
  | obj fields => '{' :: compactFields fields ++ ['}']

def compactItems : List Json → List Char
  | [] => []
  | [a] => compact a
  | a :: rest => compact a ++ ',' :: compactItems rest

def compactFields : List (String × Json) → List Char
  | [] => []
  | [(k, a)] => quote k ++ ':' :: compact a
  | (k, a) :: rest => quote k ++ ':' :: compact a ++ ',' :: compactFields rest

end

/-- A new line at an indentation of `n` steps of two blanks. -/
def newline (n : Nat) : List Char := '\n' :: List.replicate (2 * n) ' '

mutual

/-- The text indented by two blanks, for a value that stands `n` levels deep. -/
def pretty (n : Nat) : Json → List Char
  | null => ['n', 'u', 'l', 'l']
  | bool true => ['t', 'r', 'u', 'e']
  | bool false => ['f', 'a', 'l', 's', 'e']
  | int k => (toString k).toList
  | str s => quote s
  | arr [] => ['[', ']']
  | arr (a :: rest) =>
    '[' :: newline (n + 1) ++ prettyItems (n + 1) (a :: rest) ++ newline n ++ [']']
  | obj [] => ['{', '}']
  | obj (f :: rest) =>
    '{' :: newline (n + 1) ++ prettyFields (n + 1) (f :: rest) ++ newline n ++ ['}']

def prettyItems (n : Nat) : List Json → List Char
  | [] => []
  | [a] => pretty n a
  | a :: rest => pretty n a ++ ',' :: newline n ++ prettyItems n rest

def prettyFields (n : Nat) : List (String × Json) → List Char
  | [] => []
  | [(k, a)] => quote k ++ ':' :: ' ' :: pretty n a
  | (k, a) :: rest => quote k ++ ':' :: ' ' :: pretty n a ++ ',' :: newline n ++ prettyFields n rest

end

mutual

/-- Order the fields of every object by name. -/
def sortKeys : Json → Json
  | arr items => arr (sortItems items)
  | obj fields => obj ((sortFields fields).insertionSort fun f g => f.1 ≤ g.1)
  | other => other

def sortItems : List Json → List Json
  | [] => []
  | a :: rest => sortKeys a :: sortItems rest

def sortFields : List (String × Json) → List (String × Json)
  | [] => []
  | (k, a) :: rest => (k, sortKeys a) :: sortFields rest

end

example : String.ofList (compact (sortKeys (obj [("b", arr [int 3, null]), ("a", str "x\n")]))) =
    "\x7b\"a\":\"x\\n\",\"b\":[3,null]\x7d" := by decide

end Json

end Library
