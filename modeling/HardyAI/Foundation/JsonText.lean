import HardyAI.Foundation.Json

/-! What the text of a JSON value says: two values without floats have one text if and only if
they are equal up to the order of their keys. -/

namespace Foundation

section Numerals

theorem codePoint_injective : Function.Injective codePoint := by
  intro c c' h
  have hval : (codePoint c).val = (codePoint c').val := congrArg Fin.val h
  exact Char.toNat_inj.1 hval

theorem append_cons_inj {α : Type*} {c : α} {a a' b b' : List α} (hb : c ∉ b) (hb' : c ∉ b')
    (h : a ++ c :: b = a' ++ c :: b') : a = a' ∧ b = b' := by
  induction a generalizing a' with
  | nil =>
    cases a' with
    | nil => exact ⟨rfl, (List.cons.inj h).2⟩
    | cons x rest =>
      have htail : b = rest ++ c :: b' := (List.cons.inj h).2
      exact absurd (htail ▸ List.mem_append_right _ List.mem_cons_self) hb
  | cons x a ih =>
    cases a' with
    | nil =>
      have htail : a ++ c :: b = b' := (List.cons.inj h).2
      exact absurd (htail ▸ List.mem_append_right _ List.mem_cons_self) hb'
    | cons x' a' =>
      obtain ⟨rfl, htail⟩ := List.cons.inj h
      obtain ⟨rfl, hrest⟩ := ih htail
      exact ⟨rfl, hrest⟩

theorem natText_eq (n : Nat) : natText n = (Nat.toDigits 10 n).map codePoint := by
  have hlist : (toString n).toList = Nat.toDigits 10 n := by simp [toString, Nat.repr]
  rw [natText, text, hlist]

theorem natText_injective : Function.Injective natText := by
  intro n n' h
  rw [natText_eq, natText_eq] at h
  have hdigits : Nat.toDigits 10 n = Nat.toDigits 10 n' :=
    List.map_injective_iff.2 codePoint_injective h
  rw [← @Nat.ofDigitChars_toDigits 10 n (by decide) (by decide), hdigits,
    Nat.ofDigitChars_toDigits (by decide) (by decide)]

def isNumeral (c : CodePoint) : Bool := 0x30 ≤ c.val && c.val ≤ 0x39

theorem isNumeral_natText {n : Nat} {c : CodePoint} (h : c ∈ natText n) : isNumeral c = true := by
  rw [natText_eq] at h
  obtain ⟨d, hd, rfl⟩ := List.mem_map.1 h
  have hdigit : d.isDigit = true := Nat.isDigit_of_mem_toDigits (by decide) (by decide) hd
  simp only [Char.isDigit, Bool.and_eq_true, decide_eq_true_eq] at hdigit
  obtain ⟨hlow, hhigh⟩ := hdigit
  have hval : (codePoint d).val = d.val.toNat := rfl
  rw [isNumeral, Bool.and_eq_true, decide_eq_true_eq, decide_eq_true_eq, hval]
  exact ⟨hlow, hhigh⟩

theorem natText_ne_nil (n : Nat) : natText n ≠ [] := by
  rw [natText_eq]
  exact fun h => Nat.toDigits_ne_nil (List.map_eq_nil_iff.1 h)

/-- No numeral follows. -/
def Ends (u : Str) : Prop := ∀ c ∈ u.head?, isNumeral c = false

theorem takeWhile_numeral {ds u : Str} (hds : ∀ c ∈ ds, isNumeral c = true) (hu : Ends u) :
    (ds ++ u).takeWhile isNumeral = ds := by
  induction ds with
  | nil =>
    cases u with
    | nil => rfl
    | cons c u =>
      rw [List.nil_append, List.takeWhile_cons, hu c rfl]
      rfl
  | cons d ds ih =>
    rw [List.cons_append, List.takeWhile_cons, hds d List.mem_cons_self, if_pos rfl,
      ih fun c hc => hds c (List.mem_cons_of_mem d hc)]

theorem natText_append_inj {n m : Nat} {u v : Str} (hu : Ends u) (hv : Ends v)
    (h : natText n ++ u = natText m ++ v) : n = m ∧ u = v := by
  have hdigits : natText n = natText m := by
    rw [← takeWhile_numeral (fun c hc => isNumeral_natText hc) hu, h,
      takeWhile_numeral (fun c hc => isNumeral_natText hc) hv]
  refine ⟨natText_injective hdigits, ?_⟩
  rw [hdigits] at h
  exact List.append_cancel_left h

theorem intText_append_inj {n m : Int} {u v : Str} (hu : Ends u) (hv : Ends v)
    (h : intText n ++ u = intText m ++ v) : n = m ∧ u = v := by
  have hapart : ∀ (k l : Nat) (x y : Str), natText k ++ x ≠ text "-" ++ natText l ++ y := by
    intro k l x y heq
    cases hk : natText k with
    | nil => exact natText_ne_nil k hk
    | cons c ds =>
      rw [hk] at heq
      have hc : c = codePoint '-' := (List.cons.inj heq).1
      have hnum : isNumeral c = true := isNumeral_natText (hk ▸ List.mem_cons_self)
      rw [hc] at hnum
      exact absurd hnum (by decide)
  cases n with
  | ofNat n =>
    cases m with
    | ofNat m =>
      obtain ⟨rfl, hrest⟩ := natText_append_inj hu hv h
      exact ⟨rfl, hrest⟩
    | negSucc m => exact absurd h (hapart n (m + 1) u v)
  | negSucc n =>
    cases m with
    | ofNat m => exact absurd h.symm (hapart m (n + 1) v u)
    | negSucc m =>
      rw [intText, intText, List.append_assoc, List.append_assoc] at h
      obtain ⟨hnat, hrest⟩ := natText_append_inj hu hv (List.append_cancel_left h)
      obtain rfl : n = m := Nat.succ.inj hnat
      exact ⟨rfl, hrest⟩

end Numerals

namespace Json

theorem lookup_eq_none {fields : List (Str × Json)} {k : Str} :
    lookup fields k = none ↔ k ∉ fields.map Prod.fst := by
  simp only [lookup, Option.map_eq_none_iff, List.find?_eq_none, decide_eq_true_eq, List.mem_map,
    not_exists, not_and]

section Quotes

def hexValue (c : CodePoint) : Nat := if c.val < 0x3A then c.val - 0x30 else c.val - 0x57

/-- The character that a literal begins with, and what follows it. -/
def unescapeChar : Str → Option (CodePoint × Str)
  | [] => none
  | c :: rest =>
    if c.val ≠ 0x5C then some (c, rest)
    else match rest with
      | [] => none
      | k :: rest =>
        if k = codePoint 'n' then some (0x0A, rest)
        else if k = codePoint 'r' then some (0x0D, rest)
        else if k = codePoint 't' then some (0x09, rest)
        else if k = codePoint 'f' then some (0x0C, rest)
        else if k = codePoint 'b' then some (0x08, rest)
        else if k = codePoint 'u' then
          match rest with
          | _ :: _ :: x :: y :: rest =>
            some (Fin.ofNat _ (16 * hexValue x + hexValue y), rest)
          | _ => none
        else some (k, rest)

theorem hexValue_hexDigit : ∀ k < 16, hexValue (hexDigit k) = k := by decide

theorem unescapeChar_unit (c : CodePoint) (hc : c.val < 0x20) (rest : Str) :
    unescapeChar (escapeUnit c.val ++ rest) = some (c, rest) := by
  have hmark : text "\\u" = [0x5C, codePoint 'u'] := by decide
  have hread : unescapeChar (escapeUnit c.val ++ rest) =
      some (Fin.ofNat _ (16 * hexValue (hexDigit (c.val / 16 % 16)) +
        hexValue (hexDigit (c.val % 16))), rest) := by
    rw [escapeUnit, hmark]
    rfl
  rw [hread, hexValue_hexDigit _ (Nat.mod_lt _ (by decide)),
    hexValue_hexDigit _ (Nat.mod_lt _ (by decide))]
  have hval : 16 * (c.val / 16 % 16) + c.val % 16 = c.val := by omega
  rw [hval]
  exact congrArg some (Prod.ext (Fin.ext (Nat.mod_eq_of_lt c.isLt)) rfl)

theorem unescapeChar_escapeChar (c : CodePoint) (rest : Str) :
    unescapeChar (escapeChar false c ++ rest) = some (c, rest) := by
  obtain ⟨n, hn⟩ := c
  unfold escapeChar
  dsimp only
  split
  · next h => subst h; rfl
  split
  · next h => subst h; rfl
  split
  · next h => subst h; rfl
  split
  · next h => subst h; rfl
  split
  · next h => subst h; rfl
  split
  · next h => subst h; rfl
  split
  · next h => subst h; rfl
  split
  · next h => exact unescapeChar_unit ⟨n, hn⟩ h rest
  · next hback _ _ _ _ _ _ =>
    simp only [Bool.not_false, Bool.true_or, if_true, List.singleton_append]
    exact if_pos hback

/-- No character of a literal is written with a quotation mark in front. -/
theorem escapeChar_ne (c : CodePoint) (u v : Str) :
    escapeChar false c ++ u ≠ text "\"" ++ v := by
  intro h
  have hfirst := unescapeChar_escapeChar c u
  rw [h] at hfirst
  obtain rfl : (0x22 : CodePoint) = c := congrArg Prod.fst (Option.some.inj hfirst)
  exact absurd (List.cons.inj h).1 (by decide)

theorem literal_append_inj {s t u v : Str}
    (h : s.flatMap (escapeChar false) ++ (text "\"" ++ u) =
      t.flatMap (escapeChar false) ++ (text "\"" ++ v)) : s = t ∧ u = v := by
  induction s generalizing t with
  | nil =>
    cases t with
    | nil => exact ⟨rfl, List.append_cancel_left h⟩
    | cons d t =>
      rw [List.flatMap_cons, List.append_assoc] at h
      exact absurd h.symm (escapeChar_ne d _ u)
  | cons c s ih =>
    cases t with
    | nil =>
      rw [List.flatMap_cons, List.append_assoc] at h
      exact absurd h (escapeChar_ne c _ v)
    | cons d t =>
      rw [List.flatMap_cons, List.flatMap_cons, List.append_assoc, List.append_assoc] at h
      have hread := congrArg unescapeChar h
      rw [unescapeChar_escapeChar, unescapeChar_escapeChar] at hread
      obtain ⟨rfl, hrest⟩ := Prod.mk.inj (Option.some.inj hread)
      obtain ⟨rfl, huv⟩ := ih hrest
      exact ⟨rfl, huv⟩

theorem quote_append_inj {s t u v : Str} (h : quote false s ++ u = quote false t ++ v) :
    s = t ∧ u = v := by
  simp only [quote, List.append_assoc] at h
  exact literal_append_inj (List.append_cancel_left h)

end Quotes

section Members

variable {α γ : Type*} {enc : α → Str} {f : α → γ} {stop : CodePoint} {xs ys : List α} {u v : Str}

theorem join_cons (separator word : Str) (words : List Str) :
    join separator (word :: words) = word ++ words.flatMap (separator ++ ·) := by
  induction words generalizing word with
  | nil => rw [join, List.flatMap_nil, List.append_nil]
  | cons next words ih =>
    rw [join, ih, List.flatMap_cons, List.append_assoc, List.append_assoc]
    exact List.cons_ne_nil next words

theorem ends_cons {c : CodePoint} (h : isNumeral c = false) (w : Str) : Ends (c :: w) := by
  intro d hd
  obtain rfl : c = d := Option.some.inj hd
  exact h

theorem ends_tail (hstop : isNumeral stop = false) (words : List Str) (u : Str) :
    Ends (words.flatMap (text "," ++ ·) ++ stop :: u) := by
  cases words with
  | nil => exact ends_cons hstop u
  | cons word words => exact ends_cons (by decide) _

theorem tail_append_inj (hstop : isNumeral stop = false) (hcomma : stop ≠ 0x2C)
    (hread : ∀ x ∈ xs, ∀ y ∈ ys, ∀ u v, Ends u → Ends v → enc x ++ u = enc y ++ v →
      f x = f y ∧ u = v)
    (h : (xs.map enc).flatMap (text "," ++ ·) ++ stop :: u =
      (ys.map enc).flatMap (text "," ++ ·) ++ stop :: v) : xs.map f = ys.map f ∧ u = v := by
  induction xs generalizing ys with
  | nil =>
    cases ys with
    | nil => exact ⟨rfl, (List.cons.inj h).2⟩
    | cons y ys => exact absurd (List.cons.inj h).1 hcomma
  | cons x xs ih =>
    cases ys with
    | nil => exact absurd (List.cons.inj h).1.symm hcomma
    | cons y ys =>
      have htail : enc x ++ ((xs.map enc).flatMap (text "," ++ ·) ++ stop :: u) =
          enc y ++ ((ys.map enc).flatMap (text "," ++ ·) ++ stop :: v) := by
        rw [List.map_cons, List.map_cons, List.flatMap_cons, List.flatMap_cons] at h
        simp only [List.append_assoc] at h
        exact List.append_cancel_left h
      obtain ⟨hhead, hrest⟩ := hread x List.mem_cons_self y List.mem_cons_self _ _
        (ends_tail hstop _ u) (ends_tail hstop _ v) htail
      obtain ⟨hmap, huv⟩ := ih (fun x hx y hy => hread x (List.mem_cons_of_mem _ hx) y
        (List.mem_cons_of_mem _ hy)) hrest
      exact ⟨by rw [List.map_cons, List.map_cons, hhead, hmap], huv⟩

/-- The members of a bracket are read back from its text. -/
theorem join_append_inj (hstop : isNumeral stop = false) (hcomma : stop ≠ 0x2C)
    (hxs : ∀ x ∈ xs, ∀ w z, enc x ++ w ≠ stop :: z)
    (hys : ∀ y ∈ ys, ∀ w z, enc y ++ w ≠ stop :: z)
    (hread : ∀ x ∈ xs, ∀ y ∈ ys, ∀ u v, Ends u → Ends v → enc x ++ u = enc y ++ v →
      f x = f y ∧ u = v)
    (h : join (text ",") (xs.map enc) ++ stop :: u = join (text ",") (ys.map enc) ++ stop :: v) :
    xs.map f = ys.map f ∧ u = v := by
  cases xs with
  | nil =>
    cases ys with
    | nil => exact ⟨rfl, (List.cons.inj h).2⟩
    | cons y ys =>
      rw [List.map_cons, join_cons, List.append_assoc] at h
      exact absurd h.symm (hys y List.mem_cons_self _ u)
  | cons x xs =>
    cases ys with
    | nil =>
      rw [List.map_cons, join_cons, List.append_assoc] at h
      exact absurd h (hxs x List.mem_cons_self _ v)
    | cons y ys =>
      rw [List.map_cons, List.map_cons, join_cons, join_cons, List.append_assoc,
        List.append_assoc] at h
      obtain ⟨hhead, hrest⟩ := hread x List.mem_cons_self y List.mem_cons_self _ _
        (ends_tail hstop _ u) (ends_tail hstop _ v) h
      obtain ⟨hmap, huv⟩ := tail_append_inj hstop hcomma (fun x hx y hy =>
        hread x (List.mem_cons_of_mem _ hx) y (List.mem_cons_of_mem _ hy)) hrest
      exact ⟨by rw [List.map_cons, List.map_cons, hhead, hmap], huv⟩

end Members

section Order

mutual

/-- The value with the keys of each of its objects in order. -/
def sortKeys : Json → Json
  | .null => .null
  | .bool b => .bool b
  | .int n => .int n
  | .float bits => .float bits
  | .str s => .str s
  | .arr items => .arr (sortItems items)
  | .obj fields => .obj ((sortFields fields).insertionSort fun p q => p.1 ≤ q.1)

def sortItems : List Json → List Json
  | [] => []
  | x :: xs => sortKeys x :: sortItems xs

def sortFields : List (Str × Json) → List (Str × Json)
  | [] => []
  | (k, x) :: xs => (k, sortKeys x) :: sortFields xs

end

mutual

def floatFree : Json → Bool
  | .float _ => false
  | .arr items => floatFreeItems items
  | .obj fields => floatFreeFields fields
  | .null | .bool _ | .int _ | .str _ => true

def floatFreeItems : List Json → Bool
  | [] => true
  | x :: xs => floatFree x && floatFreeItems xs

def floatFreeFields : List (Str × Json) → Bool
  | [] => true
  | (_, x) :: xs => floatFree x && floatFreeFields xs

end

mutual

/-- No object has a key twice. -/
def distinctKeys : Json → Bool
  | .arr items => distinctItems items
  | .obj fields => decide (fields.map Prod.fst).Nodup && distinctFields fields
  | .null | .bool _ | .int _ | .float _ | .str _ => true

def distinctItems : List Json → Bool
  | [] => true
  | x :: xs => distinctKeys x && distinctItems xs

def distinctFields : List (Str × Json) → Bool
  | [] => true
  | (_, x) :: xs => distinctKeys x && distinctFields xs

end

theorem sortItems_eq_map (items : List Json) : sortItems items = items.map sortKeys := by
  induction items with
  | nil => rfl
  | cons x xs ih => rw [sortItems, ih, List.map_cons]

theorem sortFields_eq_map (fields : List (Str × Json)) :
    sortFields fields = fields.map fun p => (p.1, p.2.sortKeys) := by
  induction fields with
  | nil => rfl
  | cons x xs ih => rw [sortFields, ih, List.map_cons]

theorem floatFreeItems_iff {items : List Json} :
    floatFreeItems items = true ↔ ∀ x ∈ items, x.floatFree = true := by
  induction items with
  | nil => simp [floatFreeItems]
  | cons x xs ih => simp [floatFreeItems, ih]

theorem floatFreeFields_iff {fields : List (Str × Json)} :
    floatFreeFields fields = true ↔ ∀ p ∈ fields, p.2.floatFree = true := by
  induction fields with
  | nil => simp [floatFreeFields]
  | cons x xs ih => simp [floatFreeFields, ih]

theorem distinctItems_iff {items : List Json} :
    distinctItems items = true ↔ ∀ x ∈ items, x.distinctKeys = true := by
  induction items with
  | nil => simp [distinctItems]
  | cons x xs ih => simp [distinctItems, ih]

theorem distinctFields_iff {fields : List (Str × Json)} :
    distinctFields fields = true ↔ ∀ p ∈ fields, p.2.distinctKeys = true := by
  induction fields with
  | nil => simp [distinctFields]
  | cons x xs ih => simp [distinctFields, ih]

theorem distinctKeys_obj {fields : List (Str × Json)} :
    distinctKeys (.obj fields) = true ↔
      (fields.map Prod.fst).Nodup ∧ ∀ p ∈ fields, p.2.distinctKeys = true := by
  rw [distinctKeys, Bool.and_eq_true, decide_eq_true_eq, distinctFields_iff]

/-- The members of an object in the order of their keys. -/
def byKey (fields : List (Str × Json)) : List (Str × Json) :=
  fields.insertionSort fun p q => p.1 ≤ q.1

theorem byKey_map {β : Type} (g : Json → β) (fields : List (Str × Json)) :
    (fields.map fun p => (p.1, g p.2)).insertionSort (fun p q => p.1 ≤ q.1) =
      (byKey fields).map fun p => (p.1, g p.2) :=
  (List.map_insertionSort (fun p q : Str × Json => p.1 ≤ q.1) (fun p q : Str × β => p.1 ≤ q.1)
    (fun p => (p.1, g p.2)) fields fun _ _ _ _ => Iff.rfl).symm

theorem sortKeys_obj (fields : List (Str × Json)) :
    sortKeys (.obj fields) = .obj ((byKey fields).map fun p => (p.1, p.2.sortKeys)) := by
  rw [sortKeys, sortFields_eq_map, byKey_map]

variable [PythonText]

theorem render_obj (ensureAscii : Bool) (fields : List (Str × Json)) :
    render ensureAscii (.obj fields) = text "\x7b" ++ join (text ",") ((byKey fields).map fun p =>
      quote ensureAscii p.1 ++ text ":" ++ render ensureAscii p.2) ++ text "\x7d" := by
  rw [render, renderFields_eq_map, byKey_map, List.map_map]
  rfl

end Order

section Reading

/-- Which kind of value a text begins with. -/
def kindOf (c : CodePoint) : Nat :=
  if c = codePoint 'n' then 0
  else if c = codePoint 't' ∨ c = codePoint 'f' then 1
  else if isNumeral c ∨ c = codePoint '-' then 2
  else if c = codePoint '"' then 3
  else if c = codePoint '[' then 4
  else if c = 0x7B then 5
  else 6

def kind : Json → Nat
  | .null => 0
  | .bool _ => 1
  | .int _ => 2
  | .str _ => 3
  | .arr _ => 4
  | .obj _ => 5
  | .float _ => 6

theorem kindOf_numeral {c : CodePoint} (h : isNumeral c = true) : kindOf c = 2 := by
  have hn : c ≠ codePoint 'n' := by rintro rfl; exact absurd h (by decide)
  have ht : ¬(c = codePoint 't' ∨ c = codePoint 'f') := by
    rintro (rfl | rfl) <;> exact absurd h (by decide)
  rw [kindOf, if_neg hn, if_neg ht, if_pos (.inl h)]

theorem intText_kind (n : Int) : ∃ c w, intText n = c :: w ∧ kindOf c = 2 := by
  cases n with
  | ofNat n =>
    cases hn : natText n with
    | nil => exact absurd hn (natText_ne_nil n)
    | cons c w => exact ⟨c, w, hn, kindOf_numeral (isNumeral_natText (hn ▸ List.mem_cons_self))⟩
  | negSucc n => exact ⟨codePoint '-', natText (n + 1), rfl, by decide⟩

variable [PythonText]

theorem render_kind {j : Json} (h : j.floatFree = true) :
    ∃ c w, render false j = c :: w ∧ kindOf c = j.kind := by
  have hquote : kindOf (codePoint '"') = 3 := by decide
  have hbracket : kindOf (codePoint '[') = 4 := by decide
  have hbrace : kindOf 0x7B = 5 := by decide
  cases j with
  | null => exact ⟨codePoint 'n', text "ull", rfl, by decide⟩
  | bool b =>
    cases b with
    | true => exact ⟨codePoint 't', text "rue", rfl, by decide⟩
    | false => exact ⟨codePoint 'f', text "alse", rfl, by decide⟩
  | int n => exact intText_kind n
  | float bits => cases h
  | str s => exact ⟨codePoint '"', _, rfl, hquote⟩
  | arr items => exact ⟨codePoint '[', _, rfl, hbracket⟩
  | obj fields => exact ⟨0x7B, _, rfl, hbrace⟩

theorem kind_of_render {j j' : Json} {u v : Str} (h : j.floatFree = true)
    (h' : j'.floatFree = true) (htext : render false j ++ u = render false j' ++ v) :
    j.kind = j'.kind := by
  obtain ⟨c, w, hrender, hkind⟩ := render_kind h
  obtain ⟨c', w', hrender', hkind'⟩ := render_kind h'
  rw [hrender, hrender'] at htext
  rw [← hkind, ← hkind', (List.cons.inj htext).1]

/-- No value begins with a closing bracket. -/
theorem render_ne_stop {j : Json} (h : j.floatFree = true) {stop : CodePoint}
    (hstop : kindOf stop = 6) (w z : Str) : render false j ++ w ≠ stop :: z := by
  intro heq
  obtain ⟨c, rest, hrender, hkind⟩ := render_kind h
  rw [hrender] at heq
  rw [(List.cons.inj heq).1, hstop] at hkind
  cases j with
  | float bits => cases h
  | _ => cases hkind

/-- What is known of the members of two arrays holds of the arrays. -/
theorem items_append_inj {xs ys : List Json} {u v : Str} (hxs : ∀ x ∈ xs, x.floatFree = true)
    (hys : ∀ y ∈ ys, y.floatFree = true)
    (hread : ∀ x ∈ xs, ∀ y ∈ ys, ∀ u v, Ends u → Ends v →
      render false x ++ u = render false y ++ v → x.sortKeys = y.sortKeys ∧ u = v)
    (h : join (text ",") (xs.map (render false)) ++ (text "]" ++ u) =
      join (text ",") (ys.map (render false)) ++ (text "]" ++ v)) :
    xs.map sortKeys = ys.map sortKeys ∧ u = v := by
  have hstop : kindOf (codePoint ']') = 6 := by decide
  exact join_append_inj (by decide) (by decide) (fun x hx => render_ne_stop (hxs x hx) hstop)
    (fun y hy => render_ne_stop (hys y hy) hstop) hread h

theorem fields_append_inj {fs gs : List (Str × Json)} {u v : Str}
    (hread : ∀ p ∈ fs, ∀ q ∈ gs, ∀ u v, Ends u → Ends v →
      render false p.2 ++ u = render false q.2 ++ v → p.2.sortKeys = q.2.sortKeys ∧ u = v)
    (h : join (text ",") ((byKey fs).map fun p => quote false p.1 ++ text ":" ++ render false p.2) ++
        (text "\x7d" ++ u) =
      join (text ",") ((byKey gs).map fun p => quote false p.1 ++ text ":" ++ render false p.2) ++
        (text "\x7d" ++ v)) :
    ((byKey fs).map fun p => (p.1, p.2.sortKeys)) = ((byKey gs).map fun p => (p.1, p.2.sortKeys)) ∧
      u = v := by
  have hquote : ∀ (p : Str × Json) (w z : Str),
      quote false p.1 ++ text ":" ++ render false p.2 ++ w ≠ 0x7D :: z :=
    fun p w z heq => absurd (List.cons.inj heq).1 (by decide)
  refine join_append_inj (by decide) (by decide) (fun p _ => hquote p) (fun q _ => hquote q)
    (fun p hp q hq u v hu hv hpq => ?_) h
  · simp only [List.append_assoc] at hpq
    obtain ⟨hkey, hvalue⟩ := quote_append_inj hpq
    obtain ⟨hsame, hrest⟩ := hread p (List.mem_insertionSort _ |>.1 hp) q
      (List.mem_insertionSort _ |>.1 hq) u v hu hv (List.append_cancel_left hvalue)
    exact ⟨Prod.ext hkey hsame, hrest⟩

theorem render_append_inj {j j' : Json} {u v : Str} (hj : j.floatFree = true)
    (hj' : j'.floatFree = true) (hu : Ends u) (hv : Ends v)
    (h : render false j ++ u = render false j' ++ v) : j.sortKeys = j'.sortKeys ∧ u = v := by
  have hkind := kind_of_render hj hj' h
  induction j using Json.induct generalizing j' u v with
  | null =>
    cases j' with
    | null => exact ⟨rfl, List.append_cancel_left h⟩
    | _ => cases hkind
  | bool b =>
    cases j' with
    | bool b' =>
      cases b <;> cases b'
      · exact ⟨rfl, List.append_cancel_left h⟩
      · exact absurd (List.cons.inj h).1 (by decide)
      · exact absurd (List.cons.inj h).1 (by decide)
      · exact ⟨rfl, List.append_cancel_left h⟩
    | _ => cases hkind
  | int n =>
    cases j' with
    | int n' =>
      obtain ⟨rfl, hrest⟩ := intText_append_inj hu hv h
      exact ⟨rfl, hrest⟩
    | _ => cases hkind
  | float bits => cases hj
  | str s =>
    cases j' with
    | str s' =>
      obtain ⟨rfl, hrest⟩ := quote_append_inj h
      exact ⟨rfl, hrest⟩
    | _ => cases hkind
  | arr items ih =>
    cases j' with
    | arr items' =>
      have hfree := floatFreeItems_iff.1 hj
      have hfree' := floatFreeItems_iff.1 hj'
      simp only [render, renderItems_eq_map, List.append_assoc] at h
      obtain ⟨hmap, hrest⟩ := items_append_inj hfree hfree' (fun x hx y hy u v hu hv hxy =>
        ih x hx (hfree x hx) (hfree' y hy) hu hv hxy (kind_of_render (hfree x hx) (hfree' y hy) hxy))
        (List.append_cancel_left h)
      rw [sortKeys, sortKeys, sortItems_eq_map, sortItems_eq_map, hmap]
      exact ⟨rfl, hrest⟩
    | _ => cases hkind
  | obj fields ih =>
    cases j' with
    | obj fields' =>
      have hfree := floatFreeFields_iff.1 hj
      have hfree' := floatFreeFields_iff.1 hj'
      rw [render_obj, render_obj, List.append_assoc, List.append_assoc, List.append_assoc,
        List.append_assoc] at h
      obtain ⟨hmap, hrest⟩ := fields_append_inj (fun p hp q hq u v hu hv hpq =>
        ih p hp (hfree p hp) (hfree' q hq) hu hv hpq (kind_of_render (hfree p hp) (hfree' q hq) hpq))
        (List.append_cancel_left h)
      rw [sortKeys_obj, sortKeys_obj, hmap]
      exact ⟨rfl, hrest⟩
    | _ => cases hkind

/-- Sorting the keys does not change the text. -/
theorem render_sortKeys (ensureAscii : Bool) (j : Json) :
    render ensureAscii j.sortKeys = render ensureAscii j := by
  induction j using Json.induct with
  | arr items ih =>
    have hitems : items.map (render ensureAscii ∘ sortKeys) = items.map (render ensureAscii) :=
      List.map_congr_left ih
    rw [sortKeys, render, render, renderItems_eq_map, renderItems_eq_map, sortItems_eq_map,
      List.map_map, hitems]
  | obj fields ih =>
    have hsorted : byKey ((byKey fields).map fun p => (p.1, p.2.sortKeys)) =
        (byKey fields).map fun p => (p.1, p.2.sortKeys) := by
      rw [← byKey_map, byKey]
      exact List.Pairwise.insertionSort_eq (List.pairwise_insertionSort _ _)
    rw [sortKeys_obj, render_obj, render_obj, hsorted, List.map_map]
    have hmembers : ∀ p ∈ byKey fields, ((fun p => quote ensureAscii p.1 ++ text ":" ++
        render ensureAscii p.2) ∘ fun p => (p.1, p.2.sortKeys)) p =
          quote ensureAscii p.1 ++ text ":" ++ render ensureAscii p.2 := by
      intro p hp
      show _ ++ render ensureAscii p.2.sortKeys = _
      rw [ih p (List.mem_insertionSort _ |>.1 hp)]
    rw [List.map_congr_left hmembers]
  | _ => rfl

/-- Two values have one text if and only if they are equal up to the order of their keys. -/
theorem render_eq_iff {j j' : Json} (hj : j.floatFree = true) (hj' : j'.floatFree = true) :
    render false j = render false j' ↔ j.sortKeys = j'.sortKeys := by
  constructor
  · intro h
    have happend : render false j ++ [] = render false j' ++ [] := by
      rw [List.append_nil, List.append_nil, h]
    have hends : Ends [] := fun c hc => absurd hc (Option.not_mem_none c)
    exact (render_append_inj hj hj' hends hends happend).1
  · intro h
    rw [← render_sortKeys, h, render_sortKeys]

end Reading

end Json

end Foundation
