import HardyAI.Foundation.JsonText
import HardyAI.Foundation.Sha256
import Mathlib.Data.Set.Function

/-! What equal digests say of the texts that were hashed, where SHA-256 has no collision among
their messages. -/

namespace Foundation

section Encoding

/-- The number of the first character, and the bytes that follow it. -/
def utf8Head : List Nat → Option (Nat × List Nat)
  | a :: rest =>
    if a < 0x80 then some (a, rest)
    else if a < 0xE0 then
      match rest with
      | b :: rest => some ((a - 0xC0) * 0x40 + (b - 0x80), rest)
      | [] => none
    else if a < 0xF0 then
      match rest with
      | b :: c :: rest => some ((a - 0xE0) * 0x1000 + (b - 0x80) * 0x40 + (c - 0x80), rest)
      | _ => none
    else
      match rest with
      | b :: c :: d :: rest =>
        some ((a - 0xF0) * 0x40000 + (b - 0x80) * 0x1000 + (c - 0x80) * 0x40 + (d - 0x80), rest)
      | _ => none
  | [] => none

theorem utf8Head_utf8Char (c : CodePoint) (rest : List Nat) :
    utf8Head (utf8Char c ++ rest) = some (c.val, rest) := by
  obtain ⟨n, hn⟩ := c
  unfold utf8Char
  dsimp only
  split
  · next h => exact if_pos h
  split
  · next h h' =>
    have hfirst : ¬0xC0 + n / 0x40 < 0x80 := by omega
    have hsecond : 0xC0 + n / 0x40 < 0xE0 := by omega
    have hvalue : (0xC0 + n / 0x40 - 0xC0) * 0x40 + (0x80 + n % 0x40 - 0x80) = n := by omega
    simp only [List.cons_append, List.nil_append, utf8Head, if_neg hfirst, if_pos hsecond, hvalue]
  split
  · next h h' h'' =>
    have hfirst : ¬0xE0 + n / 0x1000 < 0x80 := by omega
    have hsecond : ¬0xE0 + n / 0x1000 < 0xE0 := by omega
    have hthird : 0xE0 + n / 0x1000 < 0xF0 := by omega
    have hvalue : (0xE0 + n / 0x1000 - 0xE0) * 0x1000 + (0x80 + n / 0x40 % 0x40 - 0x80) * 0x40 +
        (0x80 + n % 0x40 - 0x80) = n := by omega
    simp only [List.cons_append, List.nil_append, utf8Head, if_neg hfirst, if_neg hsecond,
      if_pos hthird, hvalue]
  · next h h' h'' =>
    have hfirst : ¬0xF0 + n / 0x40000 < 0x80 := by omega
    have hsecond : ¬0xF0 + n / 0x40000 < 0xE0 := by omega
    have hthird : ¬0xF0 + n / 0x40000 < 0xF0 := by omega
    have hvalue : (0xF0 + n / 0x40000 - 0xF0) * 0x40000 +
        (0x80 + n / 0x1000 % 0x40 - 0x80) * 0x1000 + (0x80 + n / 0x40 % 0x40 - 0x80) * 0x40 +
        (0x80 + n % 0x40 - 0x80) = n := by omega
    simp only [List.cons_append, List.nil_append, utf8Head, if_neg hfirst, if_neg hsecond,
      if_neg hthird, hvalue]

theorem utf8Chars_injective {s t : Str} (h : s.flatMap utf8Char = t.flatMap utf8Char) : s = t := by
  have hne : ∀ (c : CodePoint) (u : List Nat), utf8Char c ++ u ≠ [] := by
    intro c u hnil
    have hhead := utf8Head_utf8Char c u
    rw [hnil] at hhead
    cases hhead
  induction s generalizing t with
  | nil =>
    cases t with
    | nil => rfl
    | cons d t => exact absurd h.symm (hne d _)
  | cons c s ih =>
    cases t with
    | nil => exact absurd h (hne c _)
    | cons d t =>
      rw [List.flatMap_cons, List.flatMap_cons] at h
      have hhead := congrArg utf8Head h
      rw [utf8Head_utf8Char, utf8Head_utf8Char] at hhead
      obtain ⟨hval, hrest⟩ := Prod.mk.inj (Option.some.inj hhead)
      rw [Fin.ext hval, ih hrest]

theorem utf8_injective {s t : Str} {bytes : List Nat} (hs : utf8 s = .ok bytes)
    (ht : utf8 t = .ok bytes) : s = t := by
  unfold utf8 at hs ht
  split at hs
  · split at ht
    · exact utf8Chars_injective ((Except.ok.inj hs).trans (Except.ok.inj ht).symm)
    · cases ht
  · cases hs

end Encoding

section Digests

/-- SHA-256 has no collision among the messages. -/
def CollisionFree (messages : List (List Nat)) : Prop :=
  Set.InjOn Sha256.hexdigest { m | m ∈ messages }

/-- The message of a text, where it has one. -/
def messageOf (s : Except PyError Str) : List (List Nat) :=
  match s >>= utf8 with
  | .ok bytes => [bytes]
  | .error _ => []

theorem mem_messageOf {s : Except PyError Str} {bytes : List Nat} (h : s >>= utf8 = .ok bytes) :
    bytes ∈ messageOf s := by
  rw [messageOf, h]
  exact List.mem_singleton.2 rfl

theorem hexdigest_inj {messages : List (List Nat)} (hfree : CollisionFree messages)
    {bytes bytes' : List Nat} (hb : bytes ∈ messages) (hb' : bytes' ∈ messages) :
    Sha256.hexdigest bytes = Sha256.hexdigest bytes' ↔ bytes = bytes' :=
  ⟨fun h => hfree hb hb' h, fun h => h ▸ rfl⟩

theorem digest_inj {messages : List (List Nat)} (hfree : CollisionFree messages) {s t : Str}
    {bytes bytes' : List Nat} (hs : utf8 s = .ok bytes) (ht : utf8 t = .ok bytes')
    (hb : bytes ∈ messages) (hb' : bytes' ∈ messages) :
    Sha256.hexdigest bytes = Sha256.hexdigest bytes' ↔ s = t := by
  rw [hexdigest_inj hfree hb hb']
  constructor
  · rintro rfl
    exact utf8_injective hs ht
  · rintro rfl
    exact Except.ok.inj (hs.symm.trans ht)

theorem CollisionFree.mono {messages more : List (List Nat)} (h : CollisionFree more)
    (hsub : ∀ m ∈ messages, m ∈ more) : CollisionFree messages :=
  Set.InjOn.mono hsub h

end Digests

section Lines

/-- Two texts that are joined by a line break, the second of one line. -/
theorem lines_inj {a a' b b' : Str} (hb : (0x0A : CodePoint) ∉ b) (hb' : (0x0A : CodePoint) ∉ b') :
    a ++ text "\n" ++ b = a' ++ text "\n" ++ b' ↔ a = a' ∧ b = b' := by
  constructor
  · intro h
    rw [List.append_assoc, List.append_assoc] at h
    exact append_cons_inj hb hb' h
  · rintro ⟨rfl, rfl⟩
    rfl

theorem newline_notMem_hexdigest (bytes : List Nat) :
    (0x0A : CodePoint) ∉ Sha256.hexdigest bytes := by
  intro h
  have hhex := Sha256.hexdigest_hex bytes _ h
  revert hhex
  decide

theorem newline_notMem_natText (n : Nat) : (0x0A : CodePoint) ∉ natText n := by
  intro h
  have hnumeral := isNumeral_natText h
  revert hnumeral
  decide

theorem newline_notMem_intText (n : Int) : (0x0A : CodePoint) ∉ intText n := by
  cases n with
  | ofNat n => exact newline_notMem_natText n
  | negSucc n =>
    rw [intText, List.mem_append, not_or]
    exact ⟨by decide, newline_notMem_natText _⟩

theorem intText_injective : Function.Injective intText := by
  intro n m h
  have hends : Ends [] := fun c hc => absurd hc (Option.not_mem_none c)
  have happend : intText n ++ [] = intText m ++ [] := by rw [List.append_nil, List.append_nil, h]
  exact (intText_append_inj hends hends happend).1

end Lines

end Foundation
