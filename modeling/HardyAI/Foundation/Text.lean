import Mathlib.Algebra.Order.Ring.Int
import Mathlib.Data.List.Basic
import Mathlib.Data.Fin.Basic
import Mathlib.Order.Defs.LinearOrder
import Mathlib.Data.List.Lex
import Mathlib.Data.List.DropRight

/-! Text as a sequence of code points, lone surrogates included, with the
string operations that do not depend on a Unicode table. -/

namespace Foundation

abbrev CodePoint := Fin 0x110000

abbrev Str := List CodePoint

instance codePoints_neZero : NeZero 0x110000 := ⟨by decide⟩

instance : LawfulBEq CodePoint := inferInstance

instance : LawfulBEq Str := inferInstance

def codePoint (c : Char) : CodePoint :=
  ⟨c.toNat, by
    have hvalid := c.valid
    simp only [UInt32.isValidChar, Nat.isValidChar] at hvalid
    change c.val.toNat < 0x110000
    omega⟩

def text (s : String) : Str := s.toList.map codePoint

instance : Coe String Str := ⟨text⟩

def isSurrogate (c : CodePoint) : Bool := 0xD800 ≤ c.val && c.val ≤ 0xDFFF

/-- Text that UTF-8 can encode. -/
def encodable (s : Str) : Bool := s.all fun c => !isSurrogate c

/-- The characters `str.strip` and `str.split` treat as blank. -/
def isSpace (c : CodePoint) : Bool :=
  let n := c.val
  (9 ≤ n && n ≤ 13) || (0x1C ≤ n && n ≤ 0x20) || n == 0x85 || n == 0xA0 || n == 0x1680 ||
    (0x2000 ≤ n && n ≤ 0x200A) || n == 0x2028 || n == 0x2029 || n == 0x202F || n == 0x205F ||
    n == 0x3000

def strip (s : Str) : Str := (s.dropWhile isSpace).reverse.dropWhile isSpace |>.reverse

theorem dropWhile_isSpace_strip (s : Str) : (strip s).dropWhile isSpace = strip s := by
  rw [List.dropWhile_eq_self_iff]
  intro hlength
  have hpre : strip s <+: s.dropWhile isSpace := List.rdropWhile_prefix isSpace _
  have hdrop : 0 < (s.dropWhile isSpace).length := lt_of_lt_of_le hlength hpre.length_le
  have hhead := List.dropWhile_get_zero_not isSpace s hdrop
  have hsame : (strip s)[0] = (s.dropWhile isSpace)[0] := hpre.getElem hlength
  rw [hsame]
  exact hhead

/-- Stripped text has nothing left to strip. -/
theorem strip_strip (s : Str) : strip (strip s) = strip s := by
  have hfront := dropWhile_isSpace_strip s
  have hback : List.rdropWhile isSpace (strip s) = strip s :=
    List.rdropWhile_idempotent isSpace (s.dropWhile isSpace)
  calc strip (strip s) = List.rdropWhile isSpace ((strip s).dropWhile isSpace) := rfl
    _ = List.rdropWhile isSpace (strip s) := by rw [hfront]
    _ = strip s := hback

/-- The maximal runs of non-blank characters, as `str.split()` returns them. -/
def splitWords (s : Str) : List Str := (s.splitBy fun a b => isSpace a == isSpace b).filter
  fun word => !word.all isSpace

def join (separator : Str) : List Str → Str
  | [] => []
  | [word] => word
  | word :: words => word ++ separator ++ join separator words

def startsWith (s before : Str) : Bool := before.isPrefixOf s

theorem encodable_append (s t : Str) : encodable (s ++ t) = (encodable s && encodable t) :=
  List.all_append

/-- The decimal digits of a natural number. -/
def natText (n : Nat) : Str := text (toString n)

def intText : Int → Str
  | .ofNat n => natText n
  | .negSucc n => text "-" ++ natText (n + 1)

end Foundation
