import Mathlib.Tactic

/-!
JSON values and the compact notation in which `serde_json::to_string` prints them: no
blanks, members in the order given, and text escaped no more than the format requires.

* `chars`: the notation.
* `Serializer`: what prints it.
-/

/-- A JSON value. The numbers are integers, and the members of an object are listed in
the order in which they are printed. -/
inductive Json where
  | null
  | bool (b : Bool)
  | num (n : ℤ)
  | str (s : String)
  | arr (items : List Json)
  | obj (members : List (String × Json))

namespace Json

/-- One hexadecimal digit, in lower case. -/
def hexDigit (n : ℕ) : Char := if n < 10 then Char.ofNat (48 + n) else Char.ofNat (87 + n)

/-- A character inside a string: quotation mark, backslash and the control characters are
escaped, these by a letter if they have one. -/
def escapeChar (c : Char) : List Char :=
  if c = '"' then ['\\', '"']
  else if c = '\\' then ['\\', '\\']
  else if c.toNat = 8 then ['\\', 'b']
  else if c.toNat = 9 then ['\\', 't']
  else if c.toNat = 10 then ['\\', 'n']
  else if c.toNat = 12 then ['\\', 'f']
  else if c.toNat = 13 then ['\\', 'r']
  else if c.toNat < 32 then ['\\', 'u', '0', '0', hexDigit (c.toNat / 16), hexDigit (c.toNat % 16)]
  else [c]

/-- A string with its quotation marks. -/
def quote (s : String) : List Char := '"' :: (s.toList.flatMap escapeChar ++ ['"'])

/-- An integer in decimal. -/
def numeral (n : ℤ) : List Char :=
  if n < 0 then '-' :: Nat.toDigits 10 n.natAbs else Nat.toDigits 10 n.natAbs

mutual

/-- The compact notation of a value. -/
def chars : Json → List Char
  | null => "null".toList
  | bool b => if b then "true".toList else "false".toList
  | num n => numeral n
  | str s => quote s
  | arr items => '[' :: (itemChars items ++ [']'])
  | obj members => '\x7b' :: (memberChars members ++ ['\x7d'])

/-- The items of an array, separated by commas. -/
def itemChars : List Json → List Char
  | [] => []
  | [v] => chars v
  | v :: vs => chars v ++ ',' :: itemChars vs

/-- The members of an object, separated by commas. -/
def memberChars : List (String × Json) → List Char
  | [] => []
  | [(k, v)] => quote k ++ ':' :: chars v
  | (k, v) :: ms => quote k ++ ':' :: (chars v ++ ',' :: memberChars ms)

end

/-- `serde_json::to_string`, as far as it is documented: a text in the compact notation. -/
class Serializer where
  toString : Json → String
  toList_toString : ∀ v, (toString v).toList = v.chars

/-- `serde_json::to_string`. -/
def toString [Serializer] (v : Json) : String := Serializer.toString v

lemma toList_toString [Serializer] (v : Json) : v.toString.toList = v.chars :=
  Serializer.toList_toString v

lemma toList_ofList_chars (v : Json) : (String.ofList v.chars).toList = v.chars :=
  String.toList_ofList

/-- The serializer that prints the characters. -/
instance compact : Serializer where
  toString v := String.ofList v.chars
  toList_toString := toList_ofList_chars

/-- `Option<T>`: absent values are `null`. -/
def option (f : α → Json) : Option α → Json
  | none => null
  | some a => f a

/-- `Vec<T>`. -/
def list (f : α → Json) (l : List α) : Json := arr (l.map f)

example : toString (obj [("id", str "fab-\"1\"\n"), ("size", num (-2)), ("gbps", null),
    ("members", arr [bool true, arr []])])
      = "\x7b\"id\":\"fab-\\\"1\\\"\\n\",\"size\":-2,\"gbps\":null,\"members\":[true,[]]\x7d" := by
  decide

end Json
