import BazelPro.C.Memory

/-!
# JSON documents

The part of the JSON library that the server uses: documents, and the accessors with the
preconditions they assert. An accessor whose assertion fails is `none`. Parsing and printing
belong to the library and are parameters of the model (`Rapidjson`).
-/

namespace BazelPro.Jw

open C

/-- The bytes of a string literal, without the terminator. -/
def str (s : String) : List Byte := s.toList.map chr

/-- A JSON value. Numbers with a fraction or an exponent keep their text. -/
inductive Json where
  | null
  | bool (b : Bool)
  | int (n : Int)
  | real (text : List Byte)
  | string (s : List Byte)
  | array (elements : List Json)
  | object (members : List (List Byte × Json))

/-- The library: the parser, which is `none` on a parse error, and the compact writer. -/
structure Rapidjson where
  parse : List Byte → Option Json
  write : Json → List Byte

namespace Json

/-- `FindMember`: the first member of this name. The value must be an object; the inner `none`
is `MemberEnd()`. -/
def findMember (v : Json) (name : List Byte) : Option (Option Json) :=
  match v with
  | .object members => some ((members.find? fun m => m.1 = name).map Prod.snd)
  | _ => none

/-- `v[name]`, which asserts that the member exists. -/
def member (v : Json) (name : List Byte) : Option Json := (v.findMember name).join

/-- `std::string s = v.GetString()`: the value must be a string, and the conversion stops at
the first NUL. -/
def getString : Json → Option (List Byte)
  | .string s => some (s.takeWhile (· ≠ 0))
  | _ => none

/-- `GetInt()`: the value must be an integer that fits an `int`. -/
def getInt : Json → Option (BitVec 32)
  | .int n => if -2 ^ 31 ≤ n ∧ n < 2 ^ 31 then some (BitVec.ofInt 32 n) else none
  | _ => none

/-- An object with integer members `x` and `y`. -/
def point (x y : Int) : Json := .object [(str "x", .int x), (str "y", .int y)]

end Json

end BazelPro.Jw
