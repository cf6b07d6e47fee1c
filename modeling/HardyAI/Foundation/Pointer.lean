import HardyAI.Foundation.Json

/-! JSON pointers: their segments, the values they lead to, and the patterns with
wildcards that they are matched against. -/

namespace Foundation.Json

section Segments

def slash : CodePoint := 0x2F
def tilde : CodePoint := 0x7E
def star : Str := "*"

/-- `s.split(c)`. -/
def splitOn (c : CodePoint) : Str → List Str
  | [] => [[]]
  | x :: xs =>
    if x = c then [] :: splitOn c xs
    else match splitOn c xs with
      | [] => [[x]]
      | word :: words => (x :: word) :: words

/-- `s.replace("~" + code, char)`. -/
def unescape (code char : CodePoint) : Str → Str
  | [] => []
  | [x] => [x]
  | x :: y :: rest =>
    if x = tilde ∧ y = code then char :: unescape code char rest
    else x :: unescape code char (y :: rest)

def decodeSegment (segment : Str) : Str := unescape 0x30 tilde (unescape 0x31 slash segment)

/-- `pointer[1:].split("/")`. -/
def rawSegments (pointer : Str) : List Str := splitOn slash (pointer.drop 1)

def pointerSegments (pointer : Str) : List Str := (rawSegments pointer).map decodeSegment

/-- The segments that a pattern and a pointer have in common agree. -/
def segmentsMatch (pattern pointer : List Str) : Bool :=
  (pattern.zip pointer).all fun p => p.1 = star || p.1 = p.2

example : rawSegments "/a/0" = [text "a", text "0"] := by decide

end Segments

section Resolve

variable [PythonText]

def isDigits (s : Str) : Bool := !s.isEmpty && s.all PythonText.isDigit

/-- `int(segment)` of digits, which fails on too many of them and on digits that are not
decimal. -/
def digitsValue (s : Str) : Except PyError Nat :=
  if 4300 < s.length then .error (.valueError "int_max_str_digits")
  else match s.mapM PythonText.decimal with
    | some ds => .ok (ds.foldl (fun n d => 10 * n + d.val) 0)
    | none => .error (.valueError "invalid literal for int()")

/-- The member of a value that one segment names. -/
def member (value : Json) (segment : Str) : Except PyError (Option Json) :=
  match value with
  | .obj fields => .ok (lookup fields segment)
  | .arr items => if isDigits segment then (digitsValue segment).map (items[·]?) else .ok none
  | .null | .bool _ | .int _ | .float _ | .str _ => .ok none

def resolve (value : Json) : List Str → Except PyError (Option Json)
  | [] => .ok (some value)
  | segment :: segments => do
    match ← member value segment with
    | some child => resolve child segments
    | none => .ok none

end Resolve

end Foundation.Json
