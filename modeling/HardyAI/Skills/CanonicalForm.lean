import HardyAI.Foundation.JsonText
import HardyAI.Skills.ToolContracts

/-! Which values have the same canonical JSON. -/

open Foundation Foundation.Json

namespace HardyAI.Skills

variable [PythonText]

mutual

/-- The value with each string and each key in its normal form. -/
def normalizeText : Json → Json
  | .null => .null
  | .bool b => .bool b
  | .int n => .int n
  | .float bits => .float bits
  | .str s => .str (PythonText.nfc s)
  | .arr items => .arr (normalizeItems items)
  | .obj fields => .obj (normalizeFields fields)

def normalizeItems : List Json → List Json
  | [] => []
  | x :: xs => normalizeText x :: normalizeItems xs

def normalizeFields : List (Str × Json) → List (Str × Json)
  | [] => []
  | (k, x) :: xs => (PythonText.nfc k, normalizeText x) :: normalizeFields xs

end

/-- No two keys of an object have the same normal form. -/
def keysApart (j : Json) : Bool := (normalizeText j).distinctKeys

/-- No key is dropped. -/
def KeepsKeys (j : Json) : Prop := canonicalValue j = .ok (normalizeText j)

section Fields

omit [PythonText] in
theorem mem_of_lookup {fields : List (Str × Json)} {k : Str} {x : Json}
    (h : lookup fields k = some x) : (k, x) ∈ fields := by
  obtain ⟨p, hp, rfl⟩ := Option.map_eq_some_iff.1 h
  have hfound := List.find?_some hp
  have hk : p.1 = k := of_decide_eq_true hfound
  exact hk ▸ List.mem_of_find?_eq_some hp

omit [PythonText] in
/-- Where the keys differ, a member is what its key leads to. -/
theorem lookup_of_mem {fields : List (Str × Json)} (hkeys : (fields.map Prod.fst).Nodup) {k : Str}
    {x : Json} (h : (k, x) ∈ fields) : lookup fields k = some x := by
  induction fields with
  | nil => exact absurd h List.not_mem_nil
  | cons p fields ih =>
    rw [List.map_cons, List.nodup_cons] at hkeys
    rcases List.mem_cons.1 h with rfl | h
    · simp [lookup]
    · have hne : p.1 ≠ k := fun heq => hkeys.1 (heq ▸ List.mem_map_of_mem (f := Prod.fst) h)
      have hrest := ih hkeys.2 h
      simpa [lookup, hne] using hrest

omit [PythonText] in
theorem setField_of_new {fields : List (Str × Json)} {k : Str} (h : k ∉ fields.map Prod.fst)
    (x : Json) : setField fields k x = fields ++ [(k, x)] := by
  rw [setField, lookup_eq_none.2 h]
  rfl

omit [PythonText] in
theorem keys_setField (fields : List (Str × Json)) (k : Str) (x : Json) :
    (setField fields k x).map Prod.fst =
      if k ∈ fields.map Prod.fst then fields.map Prod.fst else fields.map Prod.fst ++ [k] := by
  by_cases hk : k ∈ fields.map Prod.fst
  · have hsome : (lookup fields k).isSome = true := by
      rw [Option.isSome_iff_ne_none]
      exact fun hnone => lookup_eq_none.1 hnone hk
    rw [setField, if_pos hsome, if_pos hk, List.map_map]
    refine List.map_congr_left fun p _ => ?_
    show (if p.1 = k then (k, x) else p).1 = p.1
    split
    · next h => exact h.symm
    · rfl
  · rw [setField_of_new hk, if_neg hk, List.map_append]
    rfl

omit [PythonText] in
theorem nodup_setField {fields : List (Str × Json)} (h : (fields.map Prod.fst).Nodup) (k : Str)
    (x : Json) : ((setField fields k x).map Prod.fst).Nodup := by
  rw [keys_setField]
  split
  · exact h
  · next hk => exact List.nodup_append.2 ⟨h, List.nodup_singleton k, by
      rintro a ha b hb rfl
      exact hk (List.mem_singleton.1 hb ▸ ha)⟩

omit [PythonText] in
theorem mem_setField {fields : List (Str × Json)} {k : Str} {x : Json} {p : Str × Json}
    (h : p ∈ setField fields k x) : p ∈ fields ∨ p = (k, x) := by
  unfold setField at h
  split at h
  · obtain ⟨q, hq, rfl⟩ := List.mem_map.1 h
    split
    · exact .inr rfl
    · exact .inl hq
  · rcases List.mem_append.1 h with h | h
    · exact .inl h
    · exact .inr (List.mem_singleton.1 h)

omit [PythonText] in
theorem lookup_setField (fields : List (Str × Json)) (key : Str) (value : Json) :
    lookup (setField fields key value) key = some value := by
  unfold setField
  split
  · next hpresent =>
    rw [lookup, Option.isSome_map] at hpresent
    obtain ⟨p, hp⟩ := Option.isSome_iff_exists.1 hpresent
    have hcomp : ((fun q : Str × Json => decide (q.1 = key)) ∘
        fun q => if q.1 = key then (key, value) else q) = fun q => decide (q.1 = key) := by
      funext q
      by_cases hq : q.1 = key <;> simp [hq]
    have hkey : p.1 = key := by simpa using List.find?_some hp
    rw [lookup, List.find?_map, hcomp, hp]
    simp [hkey]
  · next habsent =>
    have hnone : fields.find? (fun p => decide (p.1 = key)) = none :=
      Option.map_eq_none_iff.1 (Option.not_isSome_iff_eq_none.1 habsent)
    simp [lookup, List.find?_append, hnone]

omit [PythonText] in
theorem lookup_setField_of_ne {fields : List (Str × Json)} {k k' : Str} (h : k' ≠ k) (x : Json) :
    lookup (setField fields k x) k' = lookup fields k' := by
  unfold setField
  split
  · have hcomp : ((fun q : Str × Json => decide (q.1 = k')) ∘
        fun q => if q.1 = k then (k, x) else q) = fun q => decide (q.1 = k') := by
      funext q
      by_cases hq : q.1 = k
      · simp [hq]
      · simp [hq]
    rw [lookup, lookup, List.find?_map, hcomp]
    cases hfind : fields.find? fun q => decide (q.1 = k') with
    | none => rfl
    | some q =>
      have hfound := List.find?_some hfind
      have hq : q.1 = k' := of_decide_eq_true hfound
      have hne : q.1 ≠ k := fun heq => h (hq.symm.trans heq)
      simp [hne]
  · have hlast : decide (k = k') = false := decide_eq_false fun heq => h heq.symm
    simp [lookup, List.find?_append, hlast]

omit [PythonText] in
theorem eq_of_mem_setField {fields : List (Str × Json)} {k : Str} {x : Json} {p : Str × Json}
    (hp : p ∈ setField fields k x) (hk : p.1 = k) : p.2 = x := by
  unfold setField at hp
  split at hp
  · obtain ⟨q, -, rfl⟩ := List.mem_map.1 hp
    split
    · rfl
    · next hq =>
      rw [if_neg hq] at hk
      exact absurd hk hq
  · next habsent =>
    rcases List.mem_append.1 hp with hp | hp
    · have hnone : lookup fields k = none := Option.not_isSome_iff_eq_none.1 habsent
      exact absurd (List.mem_map_of_mem hp) (hk ▸ lookup_eq_none.1 hnone)
    · rw [List.mem_singleton.1 hp]

omit [PythonText] in
/-- A field that has the value already is set to it in vain. -/
theorem setField_eq_self {fields : List (Str × Json)} {k : Str} {x : Json}
    (hvalue : ∀ p ∈ fields, p.1 = k → p.2 = x) (hsome : (lookup fields k).isSome = true) :
    setField fields k x = fields := by
  rw [setField, if_pos hsome]
  conv_rhs => rw [← List.map_id fields]
  refine List.map_congr_left fun p hp => ?_
  show (if p.1 = k then (k, x) else p) = p
  split
  · next hk => rw [← hk, ← hvalue p hp hk]
  · rfl

end Fields

section Values

theorem normalizeText_arr (items : List Json) :
    normalizeText (.arr items) = .arr (normalizeItems items) := rfl

theorem normalizeText_obj (fields : List (Str × Json)) :
    normalizeText (.obj fields) = .obj (normalizeFields fields) := rfl

theorem normalizeItems_cons (x : Json) (xs : List Json) :
    normalizeItems (x :: xs) = normalizeText x :: normalizeItems xs := rfl

theorem normalizeFields_cons (p : Str × Json) (xs : List (Str × Json)) :
    normalizeFields (p :: xs) =
      (PythonText.nfc p.1, normalizeText p.2) :: normalizeFields xs := rfl

theorem normalizeFields_eq_map (fields : List (Str × Json)) :
    normalizeFields fields = fields.map fun p => (PythonText.nfc p.1, normalizeText p.2) := by
  induction fields with
  | nil => rfl
  | cons p fields ih => rw [normalizeFields_cons, ih, List.map_cons]

theorem normalizeItems_eq_map (items : List Json) :
    normalizeItems items = items.map normalizeText := by
  induction items with
  | nil => rfl
  | cons x items ih => rw [normalizeItems_cons, ih, List.map_cons]

theorem canonicalItems_of_forall {items : List Json}
    (h : ∀ x ∈ items, canonicalValue x = .ok (normalizeText x)) :
    canonicalItems items = .ok (normalizeItems items) := by
  induction items with
  | nil => rfl
  | cons x items ih =>
    simp only [canonicalItems_cons, bind_eq_ok, normalizeItems_cons]
    exact ⟨_, h x List.mem_cons_self, _, ih fun y hy => h y (List.mem_cons_of_mem x hy), rfl⟩

/-- Where each key is new, every field is appended. -/
theorem canonicalFields_of_forall {acc fields : List (Str × Json)}
    (h : ∀ p ∈ fields, canonicalValue p.2 = .ok (normalizeText p.2))
    (hkeys : ((acc ++ normalizeFields fields).map Prod.fst).Nodup) :
    canonicalFields acc fields = .ok (acc ++ normalizeFields fields) := by
  induction fields generalizing acc with
  | nil =>
    have hnil : normalizeFields [] = [] := rfl
    rw [hnil, List.append_nil]
    rfl
  | cons p fields ih =>
    obtain ⟨k, x⟩ := p
    have hnew : PythonText.nfc k ∉ acc.map Prod.fst := by
      intro hk
      rw [List.map_append, List.nodup_append] at hkeys
      exact hkeys.2.2 _ hk _ List.mem_cons_self rfl
    simp only [canonicalFields_cons, bind_eq_ok]
    refine ⟨_, h _ List.mem_cons_self, ?_⟩
    rw [setField_of_new hnew, ih fun q hq => h q (List.mem_cons_of_mem _ hq)]
    · rw [normalizeFields_cons, List.append_assoc]
      rfl
    · rw [List.append_assoc]
      exact hkeys

theorem keepsKeys_of_apart {j : Json} (hfloat : j.floatFree = true) (h : keysApart j = true) :
    KeepsKeys j := by
  induction j using Json.induct with
  | float bits => cases hfloat
  | arr items ih =>
    have hfree := floatFreeItems_iff.1 hfloat
    rw [keysApart, normalizeText_arr, distinctKeys, normalizeItems_eq_map, distinctItems_iff,
      List.forall_mem_map] at h
    rw [KeepsKeys, canonicalValue_arr,
      canonicalItems_of_forall fun x hx => ih x hx (hfree x hx) (h x hx)]
    rfl
  | obj fields ih =>
    have hfree := floatFreeFields_iff.1 hfloat
    rw [keysApart, normalizeText_obj, distinctKeys_obj] at h
    obtain ⟨hkeys, hvalues⟩ := h
    rw [normalizeFields_eq_map, List.forall_mem_map] at hvalues
    rw [KeepsKeys, canonicalValue_obj, canonicalFields_of_forall
      (fun p hp => ih p hp (hfree p hp) (hvalues p hp)) hkeys]
    rfl
  | _ => rfl

theorem canonicalItems_distinct {items ys : List Json}
    (h : ∀ x ∈ items, ∀ c, canonicalValue x = .ok c → c.distinctKeys = true)
    (hys : canonicalItems items = .ok ys) : ∀ y ∈ ys, y.distinctKeys = true := by
  induction items generalizing ys with
  | nil =>
    cases hys
    exact fun y hy => absurd hy List.not_mem_nil
  | cons x items ih =>
    simp only [canonicalItems_cons, bind_eq_ok] at hys
    obtain ⟨c, hc, cs, hcs, hys⟩ := hys
    cases hys
    refine List.forall_mem_cons.2 ⟨h x List.mem_cons_self c hc, ?_⟩
    exact ih (fun z hz => h z (List.mem_cons_of_mem x hz)) hcs

/-- Each step of the loop keeps the keys of the object apart. -/
theorem canonicalFields_distinct {acc fields ys : List (Str × Json)}
    (h : ∀ p ∈ fields, ∀ c, canonicalValue p.2 = .ok c → c.distinctKeys = true)
    (hacc : distinctKeys (.obj acc) = true) (hys : canonicalFields acc fields = .ok ys) :
    distinctKeys (.obj ys) = true := by
  induction fields generalizing acc with
  | nil =>
    cases hys
    exact hacc
  | cons p fields ih =>
    obtain ⟨k, x⟩ := p
    simp only [canonicalFields_cons, bind_eq_ok] at hys
    obtain ⟨c, hc, hys⟩ := hys
    refine ih (fun q hq => h q (List.mem_cons_of_mem _ hq)) ?_ hys
    obtain ⟨hkeys, hvalues⟩ := distinctKeys_obj.1 hacc
    refine distinctKeys_obj.2 ⟨nodup_setField hkeys _ _, fun q hq => ?_⟩
    rcases mem_setField hq with hq | rfl
    · exact hvalues q hq
    · exact h (k, x) List.mem_cons_self c hc

theorem canonicalValue_distinct {j c : Json} (h : canonicalValue j = .ok c) :
    c.distinctKeys = true := by
  induction j using Json.induct generalizing c with
  | float bits =>
    by_cases hfinite : finite bits = true
    · have hvalue : canonicalValue (.float bits) = .ok (.float bits) := if_pos hfinite
      obtain rfl := Except.ok.inj (hvalue.symm.trans h)
      rfl
    · have hvalue : canonicalValue (.float bits) =
          .error (.toolContractError "json_number_non_finite") := if_neg hfinite
      rw [hvalue] at h
      cases h
  | arr items ih =>
    rw [canonicalValue_arr, map_eq_ok] at h
    obtain ⟨ys, hys, rfl⟩ := h
    exact distinctItems_iff.2 (canonicalItems_distinct (fun x hx c hc => ih x hx hc) hys)
  | obj fields ih =>
    rw [canonicalValue_obj, map_eq_ok] at h
    obtain ⟨ys, hys, rfl⟩ := h
    exact canonicalFields_distinct (fun p hp c hc => ih p hp hc) rfl hys
  | _ =>
    cases h
    rfl

theorem keepsKeys_iff {j : Json} (hfloat : j.floatFree = true) :
    KeepsKeys j ↔ keysApart j = true :=
  ⟨canonicalValue_distinct, keepsKeys_of_apart hfloat⟩

theorem floatFree_normalizeText {j : Json} (h : j.floatFree = true) :
    (normalizeText j).floatFree = true := by
  induction j using Json.induct with
  | float bits => cases h
  | arr items ih =>
    have hfree := floatFreeItems_iff.1 h
    show floatFreeItems (normalizeItems items) = true
    rw [normalizeItems_eq_map, floatFreeItems_iff, List.forall_mem_map]
    exact fun x hx => ih x hx (hfree x hx)
  | obj fields ih =>
    have hfree := floatFreeFields_iff.1 h
    show floatFreeFields (normalizeFields fields) = true
    rw [normalizeFields_eq_map, floatFreeFields_iff, List.forall_mem_map]
    exact fun p hp => ih p hp (hfree p hp)
  | _ => rfl

theorem canonicalJson_of_keeps {j : Json} {s : Str} (hkeeps : KeepsKeys j)
    (h : canonicalJson j = .ok s) : s = render false (normalizeText j) := by
  obtain ⟨c, hc, hdump⟩ := bind_eq_ok.1 h
  obtain rfl : normalizeText j = c := Except.ok.inj (hkeeps.symm.trans hc)
  unfold dump at hdump
  split at hdump
  · cases hdump
  · exact (Except.ok.inj hdump).symm

end Values

/-- Canonical JSON identifies values up to their normal forms and the order of keys, without a key
lost, if and only if no two keys of an object have the same normal form. -/
theorem canonicalJson_eq_iff {a b : Json} {s t : Str} (ha : a.floatFree = true)
    (hb : b.floatFree = true) (hs : canonicalJson a = .ok s) (ht : canonicalJson b = .ok t) :
    ((s = t ↔ (normalizeText a).sortKeys = (normalizeText b).sortKeys) ∧
        KeepsKeys a ∧ KeepsKeys b) ↔
      keysApart a = true ∧ keysApart b = true := by
  rw [keepsKeys_iff ha, keepsKeys_iff hb]
  refine ⟨fun h => h.2, fun h => ⟨?_, h⟩⟩
  rw [canonicalJson_of_keeps ((keepsKeys_iff ha).2 h.1) hs,
    canonicalJson_of_keeps ((keepsKeys_iff hb).2 h.2) ht]
  exact render_eq_iff (floatFree_normalizeText ha) (floatFree_normalizeText hb)

def writtenFields : Json := .obj [("x", .int 1), ("a", .arr [.null, .str "b"])]

def reorderedFields : Json := .obj [("a", .arr [.null, .str "b"]), ("x", .int 1)]

/-- The composition of `e` and a combining acute accent. -/
def composeAcute : Str → Str
  | [] => []
  | [c] => [c]
  | c :: d :: rest =>
    if c = 0x65 ∧ d = 0x301 then 0xE9 :: composeAcute rest else c :: composeAcute (d :: rest)

/-- The tables on ASCII text and on an `e` with a combining acute accent. -/
@[reducible] def accentText : PythonText :=
  { asciiText with nfc := composeAcute }

omit [PythonText] in
/-- The canonical texts of the samples. -/
theorem samples_checked :
    (@canonicalJson asciiText writtenFields = .ok (text "\x7b\"a\":[null,\"b\"],\"x\":1\x7d") ∧
      @canonicalJson asciiText reorderedFields =
        .ok (text "\x7b\"a\":[null,\"b\"],\"x\":1\x7d") ∧
      @keysApart asciiText writtenFields = true ∧ @keysApart asciiText reorderedFields = true ∧
      (@canonicalJson asciiText writtenFields).toOption =
        (@canonicalJson asciiText reorderedFields).toOption) ∧
    @canonicalJson accentText (.obj [([0xE9], .int 1), ([0x65, 0x301], .int 2)]) =
      .ok (text "\x7b\"é\":2\x7d") ∧
    @canonicalJson accentText (.obj [([0xE9], .int 2)]) = .ok (text "\x7b\"é\":2\x7d") ∧
    (@normalizeText accentText (.obj [([0xE9], .int 1), ([0x65, 0x301], .int 2)])).sortKeys ≠
      (@normalizeText accentText (.obj [([0xE9], .int 2)])).sortKeys := by
  decide +kernel

omit [PythonText] in
theorem canonicalJson_eq_iff_reordered :
    (@canonicalJson asciiText writtenFields).toOption =
        (@canonicalJson asciiText reorderedFields).toOption ↔
      (@normalizeText asciiText writtenFields).sortKeys =
        (@normalizeText asciiText reorderedFields).sortKeys := by
  obtain ⟨⟨hwritten, hreordered, hapart, hapart', hsame⟩, -⟩ := samples_checked
  have h := ((@canonicalJson_eq_iff asciiText writtenFields reorderedFields
    (text "\x7b\"a\":[null,\"b\"],\"x\":1\x7d") (text "\x7b\"a\":[null,\"b\"],\"x\":1\x7d")
    (by decide) (by decide) hwritten hreordered).2 ⟨hapart, hapart'⟩).1
  exact ⟨fun _ => h.1 rfl, fun _ => hsame⟩

omit [PythonText] in
/-- Of two keys with the same normal form one is lost, and which one depends on their order. -/
theorem canonicalJson_merges_keys :
    ¬∀ (a b : Json) (s t : Str), a.floatFree = true → b.floatFree = true →
      a.distinctKeys = true → b.distinctKeys = true →
      @canonicalJson accentText a = .ok s → @canonicalJson accentText b = .ok t →
      (s = t ↔ (@normalizeText accentText a).sortKeys = (@normalizeText accentText b).sortKeys) := by
  intro h
  obtain ⟨-, hboth, hone, hother⟩ := samples_checked
  have hiff := h (.obj [([0xE9], .int 1), ([0x65, 0x301], .int 2)]) (.obj [([0xE9], .int 2)])
    (text "\x7b\"é\":2\x7d") (text "\x7b\"é\":2\x7d") (by decide) (by decide) (by decide)
    (by decide) hboth hone
  exact absurd (hiff.1 rfl) hother

end HardyAI.Skills
