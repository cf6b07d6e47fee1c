import HardyAI.Foundation.JsonText

/-! What `json.loads` reads from a text of `json.dumps`. -/

namespace Foundation

section Surrogates

def isHigh (c : CodePoint) : Bool := 0xD800 ≤ c.val && c.val ≤ 0xDBFF

def isLow (c : CodePoint) : Bool := 0xDC00 ≤ c.val && c.val ≤ 0xDFFF

/-- The character that two escapes stand for. -/
def paired (c d : CodePoint) : CodePoint :=
  ⟨0x10000 + (c.val % 0x400) * 0x400 + d.val % 0x400, by omega⟩

/-- A string is read back with its surrogates paired. -/
def joinSurrogates : Str → Str
  | [] => []
  | [c] => [c]
  | c :: d :: rest =>
    if isHigh c && isLow d then paired c d :: joinSurrogates rest
    else c :: joinSurrogates (d :: rest)

theorem joinSurrogates_of_encodable {s : Str} (h : encodable s = true) : joinSurrogates s = s := by
  induction s with
  | nil => rfl
  | cons c rest ih =>
    rw [encodable, List.all_cons, Bool.and_eq_true] at h
    obtain ⟨hc, hrest⟩ := h
    cases rest with
    | nil => rfl
    | cons d rest =>
      have hhigh : isHigh c = false := by
        simp only [isSurrogate, isHigh, Bool.not_eq_true', Bool.and_eq_false_iff,
          decide_eq_false_iff_not] at hc ⊢
        omega
      rw [joinSurrogates, hhigh, Bool.false_and, if_neg Bool.false_ne_true, ih hrest]

end Surrogates

namespace Json

section Reload

/-- `d[key] = value`. -/
def putField (d : List (Str × Json)) (p : Str × Json) : List (Str × Json) :=
  if (lookup d p.1).isSome then d.map fun q => if q.1 = p.1 then p else q else d ++ [p]

/-- Pairs with different keys are a dictionary as they stand. -/
theorem foldl_putField {d ps : List (Str × Json)} (h : ((d ++ ps).map Prod.fst).Nodup) :
    ps.foldl putField d = d ++ ps := by
  induction ps generalizing d with
  | nil => rw [List.foldl_nil, List.append_nil]
  | cons p ps ih =>
    have hfresh : lookup d p.1 = none := by
      rw [lookup_eq_none]
      rw [List.map_append, List.nodup_append] at h
      exact fun hmem => h.2.2 _ hmem _ List.mem_cons_self rfl
    rw [List.foldl_cons, putField, hfresh, Option.isSome_none, if_neg Bool.false_ne_true]
    rw [List.append_cons] at h
    rw [ih h, List.append_assoc, List.singleton_append]

mutual

/-- The value that is read from the text of `json.dumps` with sorted keys. -/
def reread : Json → Json
  | .null => .null
  | .bool b => .bool b
  | .int n => .int n
  | .float bits => .float bits
  | .str s => .str (joinSurrogates s)
  | .arr items => .arr (rereadItems items)
  | .obj fields => .obj ((((rereadFields fields).insertionSort fun p q => p.1 ≤ q.1).map fun p =>
      (joinSurrogates p.1, p.2)).foldl putField [])

def rereadItems : List Json → List Json
  | [] => []
  | x :: xs => reread x :: rereadItems xs

def rereadFields : List (Str × Json) → List (Str × Json)
  | [] => []
  | (k, x) :: xs => (k, reread x) :: rereadFields xs

end

theorem rereadItems_eq_map (items : List Json) : rereadItems items = items.map reread := by
  induction items with
  | nil => rfl
  | cons x xs ih => rw [rereadItems, ih, List.map_cons]

theorem rereadFields_eq_map (fields : List (Str × Json)) :
    rereadFields fields = fields.map fun p => (p.1, p.2.reread) := by
  induction fields with
  | nil => rfl
  | cons x xs ih => rw [rereadFields, ih, List.map_cons]

/-- `json.loads(json.dumps(value, sort_keys=True))`, which the digit limit can refuse. -/
def reload (j : Json) : Except PyError Json :=
  if j.hasLongInt then .error (.valueError "int_max_str_digits") else .ok j.reread

theorem byKey_perm (fields : List (Str × Json)) : (byKey fields).Perm fields :=
  List.perm_insertionSort _ fields

/-- The members of an object with distinct keys that are text. -/
theorem reread_obj {fields : List (Str × Json)} (hnodup : (fields.map Prod.fst).Nodup)
    (htext : (fields.map Prod.fst).all encodable = true) :
    reread (.obj fields) = .obj ((byKey fields).map fun p => (p.1, p.2.reread)) := by
  have hkeys : ((byKey fields).map fun p => (joinSurrogates p.1, p.2.reread)) =
      (byKey fields).map fun p => (p.1, p.2.reread) := by
    refine List.map_congr_left fun p hp => ?_
    have hkey := List.mem_map_of_mem (f := Prod.fst) ((byKey_perm fields).mem_iff.1 hp)
    rw [joinSurrogates_of_encodable (List.all_eq_true.1 htext _ hkey)]
  have hdistinct : (((byKey fields).map fun p => (p.1, p.2.reread)).map Prod.fst).Nodup := by
    rw [List.map_map]
    exact ((byKey_perm fields).map Prod.fst).nodup_iff.2 hnodup
  rw [reread, rereadFields_eq_map, byKey_map, List.map_map]
  show Json.obj (List.foldl putField [] ((byKey fields).map fun p =>
    (joinSurrogates p.1, p.2.reread))) = _
  rw [hkeys, foldl_putField hdistinct, List.nil_append]

theorem lookup_map (f : Json → Json) (fields : List (Str × Json)) (k : Str) :
    lookup (fields.map fun p => (p.1, f p.2)) k = (lookup fields k).map f := by
  induction fields with
  | nil => rfl
  | cons p ps ih =>
    by_cases hp : p.1 = k
    · simp [lookup, hp]
    · simpa [lookup, hp] using ih

theorem lookup_perm {fields fields' : List (Str × Json)} (h : fields.Perm fields')
    (hnodup : (fields.map Prod.fst).Nodup) (k : Str) : lookup fields k = lookup fields' k := by
  rw [lookup, lookup]
  congr 1
  cases hfind : fields.find? fun p => p.1 = k with
  | none =>
    rw [List.find?_eq_none] at hfind
    exact (List.find?_eq_none.2 fun p hp => hfind p (h.mem_iff.2 hp)).symm
  | some p =>
    have hkey : p.1 = k := by simpa using List.find?_some hfind
    cases hfind' : fields'.find? fun p => p.1 = k with
    | none =>
      rw [List.find?_eq_none] at hfind'
      exact absurd (by simpa using hkey) (hfind' p (h.mem_iff.1 (List.mem_of_find?_eq_some hfind)))
    | some p' =>
      have hkey' : p'.1 = k := by simpa using List.find?_some hfind'
      have hmem' := h.mem_iff.2 (List.mem_of_find?_eq_some hfind')
      rw [List.inj_on_of_nodup_map hnodup (List.mem_of_find?_eq_some hfind) hmem'
        (hkey.trans hkey'.symm)]

/-- A function on values that leaves the values of a control record as they are, and passes
through its lists and objects. -/
structure Rereading (f : Json → Json) : Prop where
  null : f .null = .null
  int (n : Int) : f (.int n) = .int n
  str (s : Str) : encodable s = true → f (.str s) = .str s
  arr (items : List Json) : f (.arr items) = .arr (items.map f)
  obj (fields : List (Str × Json)) : (fields.map Prod.fst).Nodup →
    (fields.map Prod.fst).all encodable = true → ∃ fields', f (.obj fields) = .obj fields' ∧
      (∀ k, lookup fields' k = (lookup fields k).map f) ∧
      ∀ k, k ∈ fields'.map Prod.fst ↔ k ∈ fields.map Prod.fst

theorem rereading_id : Rereading id where
  null := rfl
  int _ := rfl
  str _ _ := rfl
  arr items := by rw [List.map_id]; rfl
  obj fields _ _ := ⟨fields, rfl, fun k => by rw [Option.map_id]; rfl, fun _ => Iff.rfl⟩

theorem rereading_reread : Rereading reread where
  null := rfl
  int _ := rfl
  str s hs := by rw [reread, joinSurrogates_of_encodable hs]
  arr items := by rw [reread, rereadItems_eq_map]
  obj fields hnodup htext := by
    refine ⟨_, reread_obj hnodup htext, fun k => ?_, fun k => ?_⟩
    · rw [lookup_map]
      congr 1
      exact lookup_perm (byKey_perm fields)
        (((byKey_perm fields).map Prod.fst).nodup_iff.2 hnodup) k
    · rw [List.map_map]
      exact ((byKey_perm fields).map Prod.fst).mem_iff

end Reload

end Json

end Foundation
