import Mathlib.Data.List.Sort

/-!
# JSON texts

`json.dumps(value, sort_keys=True, separators=(",", ":"), ensure_ascii=False)`.
-/

inductive Json
  | null
  | num (n : Int)
  | str (s : String)
  | arr (items : List Json)
  | obj (fields : List (String × Json))

namespace Json

def hexDigit (n : Nat) : Char := Char.ofNat (if n < 10 then 48 + n else 87 + n)

/-- `ESCAPE_DCT` of the encoder: backslash, double quote and the control characters. -/
def escape (c : Char) : List Char :=
  let backslash := Char.ofNat 0x5c
  match c.toNat with
  | 0x5c => [backslash, backslash]
  | 0x22 => [backslash, c]
  | 0x08 => [backslash, 'b']
  | 0x0c => [backslash, 'f']
  | 0x0a => [backslash, 'n']
  | 0x0d => [backslash, 'r']
  | 0x09 => [backslash, 't']
  | n => if n < 32 then [backslash, 'u', '0', '0', hexDigit (n / 16), hexDigit (n % 16)] else [c]

def quote (s : String) : String :=
  let mark := Char.ofNat 0x22
  String.ofList (mark :: s.toList.flatMap escape ++ [mark])

mutual

def dumps : Json → String
  | .null => "null"
  | .num n => toString n
  | .str s => quote s
  | .arr items => "[" ++ ",".intercalate (dumpsItems items) ++ "]"
  | .obj fields =>
    let sorted := (dumpsFields fields).insertionSort fun x y => x.1 ≤ y.1
    "\x7b" ++ ",".intercalate (sorted.map fun x => quote x.1 ++ ":" ++ x.2) ++ "\x7d"

def dumpsItems : List Json → List String
  | [] => []
  | x :: rest => x.dumps :: dumpsItems rest

def dumpsFields : List (String × Json) → List (String × String)
  | [] => []
  | (name, x) :: rest => (name, x.dumps) :: dumpsFields rest

end

example : (obj [("b", arr [num (-1), null]), ("a", str "x\ny")]).dumps =
    "\x7b\"a\":\"x\\ny\",\"b\":[-1,null]\x7d" := by decide +kernel

end Json
