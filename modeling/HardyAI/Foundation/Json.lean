import HardyAI.Foundation.Transaction
import Mathlib.Data.List.Sort

/-! JSON values with integers of any size and floats given by their bits, and
the text that `json.dumps` writes for them. -/

namespace Foundation

inductive Json
  | null
  | bool (b : Bool)
  | int (n : Int)
  | float (bits : BitVec 64)
  | str (s : Str)
  | arr (items : List Json)
  | obj (fields : List (Str × Json))

namespace Json

/-- Structural induction with the hypotheses of a list or an object given for
each member. -/
theorem induct {P : Json → Prop} (null : P .null) (bool : ∀ b, P (.bool b))
    (int : ∀ n, P (.int n)) (float : ∀ bits, P (.float bits)) (str : ∀ s, P (.str s))
    (arr : ∀ items, (∀ x ∈ items, P x) → P (.arr items))
    (obj : ∀ fields, (∀ p ∈ fields, P p.2) → P (.obj fields)) (j : Json) : P j :=
  @Json.rec P (fun items => ∀ x ∈ items, P x) (fun fields => ∀ p ∈ fields, P p.2) (fun p => P p.2)
    null bool int float str arr obj (by simp)
    (fun _ _ hhead htail => by simpa using ⟨hhead, htail⟩) (by simp)
    (fun _ _ hhead htail => by simpa using ⟨hhead, fun a b hab => htail (a, b) hab⟩)
    (fun _ _ h => h) j

mutual

def decEq : (a b : Json) → Decidable (a = b)
  | .null, .null => isTrue rfl
  | .bool a, .bool b => decidable_of_iff (a = b) (by simp)
  | .int a, .int b => decidable_of_iff (a = b) (by simp)
  | .float a, .float b => decidable_of_iff (a = b) (by simp)
  | .str a, .str b => decidable_of_iff (a = b) (by simp)
  | .arr a, .arr b =>
    have := decEqItems a b
    decidable_of_iff (a = b) (by simp)
  | .obj a, .obj b =>
    have := decEqFields a b
    decidable_of_iff (a = b) (by simp)
  | .null, .bool _ | .null, .int _ | .null, .float _ | .null, .str _ | .null, .arr _
  | .null, .obj _ | .bool _, .null | .bool _, .int _ | .bool _, .float _ | .bool _, .str _
  | .bool _, .arr _ | .bool _, .obj _ | .int _, .null | .int _, .bool _ | .int _, .float _
  | .int _, .str _ | .int _, .arr _ | .int _, .obj _ | .float _, .null | .float _, .bool _
  | .float _, .int _ | .float _, .str _ | .float _, .arr _ | .float _, .obj _ | .str _, .null
  | .str _, .bool _ | .str _, .int _ | .str _, .float _ | .str _, .arr _ | .str _, .obj _
  | .arr _, .null | .arr _, .bool _ | .arr _, .int _ | .arr _, .float _ | .arr _, .str _
  | .arr _, .obj _ | .obj _, .null | .obj _, .bool _ | .obj _, .int _ | .obj _, .float _
  | .obj _, .str _ | .obj _, .arr _ => isFalse (by simp)

def decEqItems : (a b : List Json) → Decidable (a = b)
  | [], [] => isTrue rfl
  | x :: xs, y :: ys =>
    have := decEq x y
    have := decEqItems xs ys
    decidable_of_iff (x = y ∧ xs = ys) (by simp)
  | [], _ :: _ | _ :: _, [] => isFalse (by simp)

def decEqFields : (a b : List (Str × Json)) → Decidable (a = b)
  | [], [] => isTrue rfl
  | (k, x) :: xs, (l, y) :: ys =>
    have := decEq x y
    have := decEqFields xs ys
    decidable_of_iff ((k = l ∧ x = y) ∧ xs = ys) (by simp)
  | [], _ :: _ | _ :: _, [] => isFalse (by simp)

end

instance : DecidableEq Json := decEq

/-- `value.get(key)` of an object. -/
def lookup (fields : List (Str × Json)) (k : Str) : Option Json :=
  (fields.find? fun p => p.1 = k).map Prod.snd

/-- Python's truth value. -/
def truthy : Json → Bool
  | .null => false
  | .bool b => b
  | .int n => n ≠ 0
  | .float bits => bits ≠ 0 ∧ bits ≠ BitVec.ofNat 64 (2 ^ 63)
  | .str s => s ≠ []
  | .arr items => !items.isEmpty
  | .obj fields => !fields.isEmpty

mutual

/-- Some integer has more decimal digits than the interpreter converts. -/
def hasLongInt : Json → Bool
  | .int n => 10 ^ 4300 ≤ n.natAbs
  | .arr items => hasLongIntItems items
  | .obj fields => hasLongIntFields fields
  | .null | .bool _ | .float _ | .str _ => false

def hasLongIntItems : List Json → Bool
  | [] => false
  | x :: xs => x.hasLongInt || hasLongIntItems xs

def hasLongIntFields : List (Str × Json) → Bool
  | [] => false
  | (_, x) :: xs => x.hasLongInt || hasLongIntFields xs

end

def isAscii (s : Str) : Bool := s.all fun c => c.val < 128

def asciiLower (c : CodePoint) : CodePoint :=
  if h : 65 ≤ c.val ∧ c.val ≤ 90 then ⟨c.val + 32, by omega⟩ else c

def asciiUpper (c : CodePoint) : CodePoint :=
  if 97 ≤ c.val ∧ c.val ≤ 122 then ⟨c.val - 32, by omega⟩ else c

/-- The text of the values for which Python's own tables decide. -/
class PythonText where
  /-- `str.casefold`. -/
  casefold : Str → Str
  casefold_ascii (s : Str) : isAscii s = true → casefold s = s.map asciiLower
  /-- `str.lower`. -/
  lower : Str → Str
  lower_ascii (s : Str) : isAscii s = true → lower s = s.map asciiLower
  /-- `str.upper`. -/
  upper : Str → Str
  upper_ascii (s : Str) : isAscii s = true → upper s = s.map asciiUpper
  /-- `unicodedata.normalize("NFC", ·)`. -/
  nfc : Str → Str
  /-- `float.__repr__`. -/
  floatRepr : BitVec 64 → Str
  /-- `repr` of a list or a dictionary. -/
  containerRepr : Json → Str
  /-- `str.isdigit` of one character. -/
  isDigit : CodePoint → Bool
  /-- `unicodedata.decimal`, which digits such as a superscript do not have. -/
  decimal : CodePoint → Option (Fin 10)

/-- The tables on ASCII text and the superscript digits two and three, for values without
floats and containers. -/
@[reducible] def asciiText : PythonText where
  casefold s := s.map asciiLower
  casefold_ascii _ _ := rfl
  lower s := s.map asciiLower
  lower_ascii _ _ := rfl
  upper s := s.map asciiUpper
  upper_ascii _ _ := rfl
  nfc s := s
  floatRepr _ := text "nan"
  containerRepr _ := text "[]"
  isDigit c := (0x30 ≤ c.val && c.val ≤ 0x39) || c.val = 0xB2 || c.val = 0xB3
  decimal c := if h : 0x30 ≤ c.val ∧ c.val ≤ 0x39 then some ⟨c.val - 0x30, by omega⟩ else none

variable [PythonText]

/-- `str(value)`. -/
def pyStr : Json → Except PyError Str
  | .null => .ok "None"
  | .bool true => .ok "True"
  | .bool false => .ok "False"
  | .int n => if hasLongInt (.int n) then .error (.valueError "int_max_str_digits")
      else .ok (intText n)
  | .float bits => .ok (PythonText.floatRepr bits)
  | .str s => .ok s
  | .arr items => if hasLongInt (.arr items) then .error (.valueError "int_max_str_digits")
      else .ok (PythonText.containerRepr (.arr items))
  | .obj fields => if hasLongInt (.obj fields) then .error (.valueError "int_max_str_digits")
      else .ok (PythonText.containerRepr (.obj fields))

/-- `str(value or default)`. -/
def textOr (value : Option Json) (default : Str) : Except PyError Str :=
  match value with
  | some v => if v.truthy then pyStr v else .ok default
  | none => .ok default

def hexDigit (n : Nat) : CodePoint :=
  if h : n < 10 then ⟨48 + n, by omega⟩ else ⟨87 + n % 16, by omega⟩

def escapeUnit (n : Nat) : Str :=
  text "\\u" ++ [hexDigit (n / 4096 % 16), hexDigit (n / 256 % 16), hexDigit (n / 16 % 16),
    hexDigit (n % 16)]

/-- One character of a JSON string literal. -/
def escapeChar (ensureAscii : Bool) (c : CodePoint) : Str :=
  let n := c.val
  if n = 0x22 then text "\\\"" else if n = 0x5C then text "\\\\"
  else if n = 0x0A then text "\\n" else if n = 0x0D then text "\\r"
  else if n = 0x09 then text "\\t" else if n = 0x0C then text "\\f"
  else if n = 0x08 then text "\\b" else if n < 0x20 then escapeUnit n
  else if !ensureAscii || n < 0x7F then [c]
  else if n < 0x10000 then escapeUnit n
  else escapeUnit (0xD800 + (n - 0x10000) / 1024) ++ escapeUnit (0xDC00 + (n - 0x10000) % 1024)

def quote (ensureAscii : Bool) (s : Str) : Str :=
  text "\"" ++ s.flatMap (escapeChar ensureAscii) ++ text "\""

mutual

/-- `json.dumps` with `sort_keys=True` and the compact separators. -/
def render (ensureAscii : Bool) : Json → Str
  | .null => "null"
  | .bool true => "true"
  | .bool false => "false"
  | .int n => intText n
  | .float bits => PythonText.floatRepr bits
  | .str s => quote ensureAscii s
  | .arr items => text "[" ++ join "," (renderItems ensureAscii items) ++ text "]"
  | .obj fields =>
    text "\x7b" ++ join "," (((renderFields ensureAscii fields).insertionSort
      fun p q => p.1 ≤ q.1).map fun p => quote ensureAscii p.1 ++ text ":" ++ p.2) ++ text "\x7d"

def renderItems (ensureAscii : Bool) : List Json → List Str
  | [] => []
  | x :: xs => render ensureAscii x :: renderItems ensureAscii xs

def renderFields (ensureAscii : Bool) : List (Str × Json) → List (Str × Str)
  | [] => []
  | (k, x) :: xs => (k, render ensureAscii x) :: renderFields ensureAscii xs

end

/-- A dump, which the digit limit of integers can refuse. -/
def dump (ensureAscii : Bool) (j : Json) : Except PyError Str :=
  if j.hasLongInt then .error (.valueError "int_max_str_digits") else .ok (j.render ensureAscii)

section Ascii

omit [PythonText] in
theorem isAscii_append (s t : Str) : isAscii (s ++ t) = (isAscii s && isAscii t) := List.all_append

omit [PythonText] in
theorem encodable_of_isAscii {s : Str} (h : isAscii s = true) : encodable s = true := by
  rw [isAscii, List.all_eq_true] at h
  rw [encodable, List.all_eq_true]
  intro c hc
  have hlt : c.val < 128 := by simpa using h c hc
  simp only [isSurrogate, Bool.not_eq_true', Bool.and_eq_false_iff, decide_eq_false_iff_not]
  left
  omega

omit [PythonText] in
theorem isAscii_join {separator : Str} {parts : List Str} (hsep : isAscii separator = true)
    (h : ∀ part ∈ parts, isAscii part = true) : isAscii (join separator parts) = true := by
  induction parts with
  | nil => rfl
  | cons part rest ih =>
    have hpart := h part List.mem_cons_self
    have hrest := ih fun p hp => h p (List.mem_cons_of_mem _ hp)
    cases rest with
    | nil => simpa [join] using hpart
    | cons next rest =>
      rw [join, isAscii_append, isAscii_append, hpart, hsep, hrest]
      · rfl
      · exact List.cons_ne_nil _ _

omit [PythonText] in
theorem hexDigit_lt (n : Nat) : (hexDigit n).val < 128 := by
  unfold hexDigit
  split
  · show 48 + n < 128
    omega
  · show 87 + n % 16 < 128
    omega

omit [PythonText] in
theorem isAscii_escapeUnit (n : Nat) : isAscii (escapeUnit n) = true := by
  have hhead : isAscii (text "\\u") = true := by decide
  rw [escapeUnit, isAscii_append, hhead]
  simp [isAscii, hexDigit_lt]

omit [PythonText] in
theorem isAscii_escapeChar (c : CodePoint) : isAscii (escapeChar true c) = true := by
  unfold escapeChar
  dsimp only
  repeat' split
  all_goals first
    | decide
    | exact isAscii_escapeUnit _
    | rw [isAscii_append, isAscii_escapeUnit, isAscii_escapeUnit]; rfl
    | simp [isAscii]; simp_all; omega

omit [PythonText] in
theorem isAscii_quote (s : Str) : isAscii (quote true s) = true := by
  have hmark : isAscii (text "\"") = true := by decide
  have hbody : isAscii (s.flatMap (escapeChar true)) = true := by
    rw [isAscii, List.all_flatMap]
    exact List.all_eq_true.2 fun c _ => isAscii_escapeChar c
  rw [quote, isAscii_append, isAscii_append, hmark, hbody]
  rfl

omit [PythonText] in
theorem isAscii_natText (n : Nat) : isAscii (natText n) = true := by
  rw [natText, text, isAscii, List.all_map, List.all_eq_true]
  intro c hc
  have hdigits : c ∈ Nat.toDigits 10 n := by simpa [toString, Nat.repr] using hc
  have hdigit : c.isDigit = true :=
    Nat.isDigit_of_mem_toDigits (by decide) (by decide) hdigits
  have hle : c.toNat ≤ 57 := by
    simp only [Char.isDigit, Bool.and_eq_true, decide_eq_true_eq] at hdigit
    exact hdigit.2
  have hlt : (codePoint c).val < 128 := lt_of_le_of_lt hle (by decide)
  simpa using hlt

omit [PythonText] in
theorem isAscii_intText (n : Int) : isAscii (intText n) = true := by
  cases n with
  | ofNat n => exact isAscii_natText n
  | negSucc n =>
    have hsign : isAscii (text "-") = true := by decide
    rw [intText, isAscii_append, hsign, isAscii_natText]
    rfl

theorem renderItems_eq_map (ensureAscii : Bool) (items : List Json) :
    renderItems ensureAscii items = items.map (render ensureAscii) := by
  induction items with
  | nil => rfl
  | cons x xs ih => rw [renderItems, ih, List.map_cons]

theorem renderFields_eq_map (ensureAscii : Bool) (fields : List (Str × Json)) :
    renderFields ensureAscii fields = fields.map fun p => (p.1, p.2.render ensureAscii) := by
  induction fields with
  | nil => rfl
  | cons x xs ih => rw [renderFields, ih, List.map_cons]

/-- A dump with `ensure_ascii` is ASCII where the texts of floats are. -/
theorem isAscii_render (hfloat : ∀ bits, isAscii (PythonText.floatRepr bits) = true) (j : Json) :
    isAscii (j.render true) = true := by
  induction j using Json.induct with
  | null =>
    have htext : isAscii (text "null") = true := by decide
    exact htext
  | bool b =>
    have htexts : isAscii (text "true") = true ∧ isAscii (text "false") = true := by decide
    cases b with
    | true => exact htexts.1
    | false => exact htexts.2
  | int n => exact isAscii_intText n
  | float bits => exact hfloat bits
  | str s => exact isAscii_quote s
  | arr items ih =>
    rw [render, isAscii_append, isAscii_append, renderItems_eq_map, isAscii_join (by decide)]
    · decide
    · intro part hpart
      obtain ⟨x, hx, rfl⟩ := List.mem_map.1 hpart
      exact ih x hx
  | obj fields ih =>
    rw [render, isAscii_append, isAscii_append, renderFields_eq_map, isAscii_join (by decide)]
    · decide
    · intro part hpart
      obtain ⟨q, hq, rfl⟩ := List.mem_map.1 hpart
      rw [List.mem_insertionSort] at hq
      obtain ⟨p, hp, rfl⟩ := List.mem_map.1 hq
      rw [isAscii_append, isAscii_append, isAscii_quote, ih p hp]
      decide

end Ascii

end Json

end Foundation
