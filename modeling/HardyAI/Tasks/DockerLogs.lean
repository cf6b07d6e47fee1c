import HardyAI.Foundation.Text
import Mathlib.Tactic.Common

/-! The output of a finished script, from the log frames of its container. -/

open Foundation

namespace HardyAI.Tasks

abbrev Byte := Fin 256

section Decoding

/-- A character that has begun: how many bytes it still needs, between which bounds the next one is,
and the bits that were read. -/
structure Begun where
  missing : Nat
  low : Nat
  high : Nat
  bits : Nat

def replacement : CodePoint := 0xFFFD

def ofBits (n : Nat) : CodePoint := if h : n < 0x110000 then ⟨n, h⟩ else replacement

/-- What a first byte is: a character, the begin of one, or nothing of a text. -/
def leadByte (b : Byte) : Option (CodePoint ⊕ Begun) :=
  let n := b.val
  if n < 0x80 then some (.inl (ofBits n))
  else if 0xC2 ≤ n && n ≤ 0xDF then some (.inr ⟨1, 0x80, 0xBF, n - 0xC0⟩)
  else if n = 0xE0 then some (.inr ⟨2, 0xA0, 0xBF, 0⟩)
  else if n = 0xED then some (.inr ⟨2, 0x80, 0x9F, 0xD⟩)
  else if 0xE1 ≤ n && n ≤ 0xEF then some (.inr ⟨2, 0x80, 0xBF, n - 0xE0⟩)
  else if n = 0xF0 then some (.inr ⟨3, 0x90, 0xBF, 0⟩)
  else if 0xF1 ≤ n && n ≤ 0xF3 then some (.inr ⟨3, 0x80, 0xBF, n - 0xF0⟩)
  else if n = 0xF4 then some (.inr ⟨3, 0x80, 0x8F, 4⟩)
  else none

/-- The characters of the bytes behind a character that has begun; each longest piece of no
character is replaced. -/
def decodeFrom : Option Begun → List Byte → Str
  | none, [] => []
  | some _, [] => [replacement]
  | begun, b :: rest =>
    let fresh := match leadByte b with
      | some (.inl c) => c :: decodeFrom none rest
      | some (.inr next) => decodeFrom (some next) rest
      | none => replacement :: decodeFrom none rest
    match begun with
    | none => fresh
    | some p =>
      if p.low ≤ b.val && b.val ≤ p.high then
        let bits := p.bits * 64 + b.val % 64
        if p.missing ≤ 1 then ofBits bits :: decodeFrom none rest
        else decodeFrom (some ⟨p.missing - 1, 0x80, 0xBF, bits⟩) rest
      else replacement :: fresh

/-- `content.decode("utf-8", errors="replace")`. -/
def decodeReplace (content : List Byte) : Str := decodeFrom none content

/-- A character cut off, one cut short by another, and a byte of none. -/
example : decodeReplace [0xE2, 0x82, 0xAC, 0xE2, 0x82, 0x41, 0xFF, 0xC3] =
    [0x20AC, 0xFFFD, 0x41, 0xFFFD, 0xFFFD] := by decide

end Decoding

section Logs

/-- `int.from_bytes(content, "big")`. -/
def bigEndian (content : List Byte) : Nat := content.foldl (fun n b => 256 * n + b.val) 0

structure LogState where
  stdout : List Byte
  stderr : List Byte
  offset : Nat

/-- The loop over the frames, each of which begins with its stream and its size. -/
def frameLoop (content : List Byte) (s : LogState) : LogState :=
  if s.offset + 8 ≤ content.length then
    let stream := content[s.offset]?
    let size := bigEndian ((content.drop (s.offset + 4)).take 4)
    let offset := s.offset + 8
    if content.length < offset + size then { s with offset }
    else
      let payload := (content.drop offset).take size
      frameLoop content (if stream = some 2 then
        { s with stderr := s.stderr ++ payload, offset := offset + size }
        else { s with stdout := s.stdout ++ payload, offset := offset + size })
  else s
termination_by content.length - s.offset
decreasing_by
  split <;> simp only <;> omega

def maxStreamBytes : Nat := 131072

/-- `_decode_docker_logs`. -/
def decodeDockerLogs (content : List Byte) : Str × Str :=
  let read := frameLoop content ⟨[], [], 0⟩
  let stdout := if read.offset = 0 then read.stdout ++ content else read.stdout
  (decodeReplace (stdout.take maxStreamBytes), decodeReplace (read.stderr.take maxStreamBytes))

/-- `logs.content[:262_144]`, as a run's logs are decoded. -/
def runLogs (content : List Byte) : Str × Str := decodeDockerLogs (content.take 262144)

end Logs

section Frames

/-- A frame of the multiplexed stream, whose size has four bytes. -/
structure Frame where
  isStderr : Bool
  payload : List Byte
  short : payload.length < 2 ^ 32

def sizeBytes (n : Nat) : List Byte :=
  [Fin.ofNat 256 (n / 2 ^ 24), Fin.ofNat 256 (n / 2 ^ 16), Fin.ofNat 256 (n / 2 ^ 8), Fin.ofNat 256 n]

def Frame.header (f : Frame) : List Byte :=
  [if f.isStderr then 2 else 1, 0, 0, 0] ++ sizeBytes f.payload.length

def encodeFrames (frames : List Frame) : List Byte := frames.flatMap fun f => f.header ++ f.payload

/-- The bytes of a stream among the first `n` bytes of the encoding. -/
def payloadWithin (isStderr : Bool) : Nat → List Frame → List Byte
  | _, [] => []
  | n, f :: frames =>
    (if f.isStderr = isStderr then f.payload.take (n - 8) else []) ++
      payloadWithin isStderr (n - (8 + f.payload.length)) frames

/-- The frames that lie within the first `n` bytes as a whole. -/
def wholeFrames : Nat → List Frame → List Frame
  | _, [] => []
  | n, f :: frames =>
    if 8 + f.payload.length ≤ n then f :: wholeFrames (n - (8 + f.payload.length)) frames else []

/-- The bytes that the frames have for a stream. -/
def streamBytes (isStderr : Bool) (frames : List Frame) : List Byte :=
  (frames.filter fun f => f.isStderr = isStderr).flatMap Frame.payload

theorem bigEndian_sizeBytes {n : Nat} (h : n < 2 ^ 32) : bigEndian (sizeBytes n) = n := by
  simp only [bigEndian, sizeBytes, List.foldl_cons, List.foldl_nil, Fin.ofNat_eq_cast, Fin.val_natCast]
  omega

theorem Frame.length_header (f : Frame) : f.header.length = 8 := rfl

/-- What the loop reads where a frame's header stands. -/
theorem header_read (front tail : List Byte) (f : Frame) :
    (front ++ (f.header ++ tail))[front.length]? = some (if f.isStderr then 2 else 1) ∧
      bigEndian (((front ++ (f.header ++ tail)).drop (front.length + 4)).take 4) =
        f.payload.length ∧
      (front ++ (f.header ++ tail)).drop (front.length + 8) = tail := by
  refine ⟨?_, ?_, ?_⟩
  · rw [List.getElem?_append_right le_rfl, Nat.sub_self]
    rfl
  · rw [← List.drop_drop, List.drop_left]
    exact bigEndian_sizeBytes f.short
  · rw [← List.drop_drop, List.drop_left]
    rfl

/-- One turn of the loop. -/
theorem frameLoop_header {content front tail : List Byte} {f : Frame} {s : LogState}
    (hcontent : content = front ++ (f.header ++ tail)) (hoffset : s.offset = front.length) :
    frameLoop content s =
      if tail.length < f.payload.length then { s with offset := front.length + 8 }
      else frameLoop content (if f.isStderr then
        { s with stderr := s.stderr ++ tail.take f.payload.length
                 offset := front.length + 8 + f.payload.length }
        else { s with stdout := s.stdout ++ tail.take f.payload.length
                      offset := front.length + 8 + f.payload.length }) := by
  obtain ⟨hstream, hsize, hdrop⟩ := header_read front tail f
  have hlength : content.length = front.length + (8 + tail.length) := by
    rw [hcontent, List.length_append, List.length_append, f.length_header]
  rw [← hcontent] at hstream hsize hdrop
  have hshort : content.length < front.length + 8 + f.payload.length ↔
      tail.length < f.payload.length := by omega
  have htwo : (some (if f.isStderr then (2 : Byte) else 1) = some 2) ↔ f.isStderr = true := by
    cases f.isStderr <;> decide
  rw [frameLoop, if_pos (by omega)]
  simp only [hoffset, hstream, hsize, hdrop, hshort, htwo]

/-- The loop puts the payloads of the whole frames on their streams. It stays at its place where
not even a header is left. -/
theorem frameLoop_encode (frames : List Frame) : ∀ (n : Nat) (front : List Byte) (s : LogState),
    s.offset = front.length →
    ∃ offset, frameLoop (front ++ (encodeFrames frames).take n) s =
        ⟨s.stdout ++ streamBytes false (wholeFrames n frames),
          s.stderr ++ streamBytes true (wholeFrames n frames), offset⟩ ∧
      front.length ≤ offset ∧
      (offset = front.length ↔ ((encodeFrames frames).take n).length < 8) := by
  induction frames with
  | nil =>
    intro n front s hoffset
    refine ⟨s.offset, ?_, hoffset.ge, by simp [encodeFrames, hoffset]⟩
    rw [frameLoop, if_neg (by simp [encodeFrames, hoffset])]
    simp [wholeFrames, streamBytes]
  | cons f frames ih =>
    intro n front s hoffset
    have hencode : encodeFrames (f :: frames) = f.header ++ (f.payload ++ encodeFrames frames) := by
      rw [encodeFrames, List.flatMap_cons, List.append_assoc]
      rfl
    rw [hencode]
    rcases Nat.lt_or_ge n 8 with hn | hn
    · have hlength : ((f.header ++ (f.payload ++ encodeFrames frames)).take n).length = n := by
        rw [List.length_take, List.length_append, f.length_header]
        omega
      have hwhole : wholeFrames n (f :: frames) = [] := by
        rw [wholeFrames, if_neg (by omega)]
      refine ⟨s.offset, ?_, hoffset.ge, by rw [hlength]; exact iff_of_true hoffset hn⟩
      rw [frameLoop, if_neg (by rw [List.length_append, hlength]; omega), hwhole]
      simp [streamBytes]
    · have htake : (f.header ++ (f.payload ++ encodeFrames frames)).take n =
          f.header ++ (f.payload ++ encodeFrames frames).take (n - 8) := by
        rw [List.take_append, f.length_header,
          List.take_of_length_le (by rw [f.length_header]; exact hn)]
      have hlong : ¬(f.header ++ (f.payload ++ encodeFrames frames).take (n - 8)).length < 8 := by
        rw [List.length_append, f.length_header]
        omega
      rw [htake, frameLoop_header rfl hoffset]
      rcases Nat.lt_or_ge (n - 8) f.payload.length with hcut | hfull
      · have htail : ((f.payload ++ encodeFrames frames).take (n - 8)).length < f.payload.length :=
          (List.length_take_le _ _).trans_lt hcut
        have hwhole : wholeFrames n (f :: frames) = [] := by
          rw [wholeFrames, if_neg (by omega)]
        refine ⟨front.length + 8, ?_, by omega, iff_of_false (by omega) hlong⟩
        rw [if_pos htail, hwhole]
        simp [streamBytes]
      · have htail : (f.payload ++ encodeFrames frames).take (n - 8) =
            f.payload ++ (encodeFrames frames).take (n - (8 + f.payload.length)) := by
          rw [List.take_append, List.take_of_length_le hfull, Nat.sub_sub]
        have hwhole : wholeFrames n (f :: frames) =
            f :: wholeFrames (n - (8 + f.payload.length)) frames := by
          rw [wholeFrames, if_pos (by omega)]
        have hnot : ¬((f.payload ++ encodeFrames frames).take (n - 8)).length < f.payload.length := by
          rw [htail, List.length_append]
          omega
        have hpayload : ((f.payload ++ encodeFrames frames).take (n - 8)).take f.payload.length =
            f.payload := by
          rw [htail, List.take_left]
        have hfront : (front ++ (f.header ++ f.payload)).length =
            front.length + 8 + f.payload.length := by
          rw [List.length_append, List.length_append, f.length_header]
          omega
        rw [if_neg hnot, hpayload, htail, ← List.append_assoc f.header, ← List.append_assoc front,
          hwhole]
        generalize hput : (if f.isStderr then
            { s with stderr := s.stderr ++ f.payload
                     offset := front.length + 8 + f.payload.length }
          else { s with stdout := s.stdout ++ f.payload
                        offset := front.length + 8 + f.payload.length } : LogState) = put
        have hplace : put.offset = (front ++ (f.header ++ f.payload)).length := by
          rw [hfront, ← hput]
          split <;> rfl
        obtain ⟨offset, hloop, hle, -⟩ := ih _ _ put hplace
        have hrest : ¬(f.header ++ f.payload ++
            (encodeFrames frames).take (n - (8 + f.payload.length))).length < 8 := by
          rw [List.length_append, List.length_append, f.length_header]
          omega
        refine ⟨offset, ?_, by omega, iff_of_false (by omega) hrest⟩
        rw [hloop, ← hput]
        cases hstream : f.isStderr <;> simp [streamBytes, hstream]

/-- Where a cut leaves a header at least, the payloads of the whole frames are decoded. -/
theorem decodeDockerLogs_framed {frames : List Frame} {n : Nat}
    (h : ¬((encodeFrames frames).take n).length < 8) :
    decodeDockerLogs ((encodeFrames frames).take n) =
      (decodeReplace ((streamBytes false (wholeFrames n frames)).take maxStreamBytes),
        decodeReplace ((streamBytes true (wholeFrames n frames)).take maxStreamBytes)) := by
  obtain ⟨offset, hloop, -, hplace⟩ := frameLoop_encode frames n [] ⟨[], [], 0⟩ rfl
  have hmoved : offset ≠ 0 := fun hzero => h (hplace.1 hzero)
  rw [List.nil_append] at hloop
  simp only [decodeDockerLogs, hloop, hmoved, if_false, List.nil_append]

/-- Fewer bytes than a header has are output without frames. -/
theorem decodeDockerLogs_short {content : List Byte} (h : content.length < 8) :
    decodeDockerLogs content = (decodeReplace content, []) := by
  have hloop : frameLoop content ⟨[], [], 0⟩ = ⟨[], [], 0⟩ := by
    rw [frameLoop, if_neg (by simp only; omega)]
  have htake : content.take maxStreamBytes = content :=
    List.take_of_length_le (h.le.trans (by decide))
  simp only [decodeDockerLogs, hloop, if_true, List.nil_append, htake, List.take_nil]
  rfl

theorem streamBytes_cons (isStderr : Bool) (f : Frame) (frames : List Frame) :
    streamBytes isStderr (f :: frames) =
      (if f.isStderr = isStderr then f.payload else []) ++ streamBytes isStderr frames := by
  by_cases h : f.isStderr = isStderr <;> simp [streamBytes, h]

/-- The frame that a cut goes through, with the bytes of its payload before the cut. -/
def LostPiece (n : Nat) (frames : List Frame) (isStderr : Bool) (lost : List Byte) : Prop :=
  ∃ f rest, frames = wholeFrames n frames ++ f :: rest ∧ f.isStderr = isStderr ∧
    lost <+: f.payload ∧ lost.length < f.payload.length

theorem payloadWithin_nil_of_zero (isStderr : Bool) (frames : List Frame) :
    payloadWithin isStderr 0 frames = [] := by
  induction frames with
  | nil => rfl
  | cons f frames ih =>
    rw [payloadWithin, Nat.zero_sub, Nat.zero_sub, ih, List.take_zero, ite_self]
    rfl

/-- Of the bytes before a cut only those are no part of a whole frame that belong to the frame that
the cut goes through. -/
theorem payloadWithin_eq (isStderr : Bool) (frames : List Frame) : ∀ n,
    ∃ lost, payloadWithin isStderr n frames = streamBytes isStderr (wholeFrames n frames) ++ lost ∧
      (lost = [] ∨ LostPiece n frames isStderr lost) := by
  induction frames with
  | nil => exact fun _ => ⟨[], rfl, .inl rfl⟩
  | cons f frames ih =>
    intro n
    rcases Nat.lt_or_ge n (8 + f.payload.length) with hcut | hfull
    · have hwhole : wholeFrames n (f :: frames) = [] := by
        rw [wholeFrames, if_neg (by omega)]
      have hzero : n - (8 + f.payload.length) = 0 := by omega
      rw [payloadWithin, hzero, payloadWithin_nil_of_zero, List.append_nil, hwhole]
      refine ⟨_, (List.nil_append _).symm, ?_⟩
      by_cases hstream : f.isStderr = isStderr
      · rw [if_pos hstream]
        by_cases hempty : f.payload = []
        · rw [hempty, List.take_nil]
          exact .inl rfl
        · have hpos := List.length_pos_iff_ne_nil.2 hempty
          refine .inr ⟨f, frames, by rw [hwhole]; rfl, hstream, List.take_prefix _ _, ?_⟩
          rw [List.length_take]
          omega
      · rw [if_neg hstream]
        exact .inl rfl
    · have hwhole : wholeFrames n (f :: frames) =
          f :: wholeFrames (n - (8 + f.payload.length)) frames := by
        rw [wholeFrames, if_pos hfull]
      obtain ⟨lost, hsame, hlost⟩ := ih (n - (8 + f.payload.length))
      refine ⟨lost, ?_, hlost.imp_right ?_⟩
      · rw [payloadWithin, hsame, hwhole, streamBytes_cons, List.append_assoc,
          List.take_of_length_le (by omega)]
      · rintro ⟨g, rest, hsplit, hg⟩
        refine ⟨g, rest, ?_, hg⟩
        rw [hwhole, List.cons_append, ← hsplit]

end Frames

section Claim

/-- Each stream is decoded from its bytes before the cut. -/
def DecodesWithin (frames : List Frame) (n : Nat) : Prop :=
  decodeDockerLogs ((encodeFrames frames).take n) =
    (decodeReplace ((payloadWithin false n frames).take maxStreamBytes),
      decodeReplace ((payloadWithin true n frames).take maxStreamBytes))

/-- Each stream is decoded from its bytes in the frames before the cut. The frame that the cut goes
through is left out as a whole. Fewer bytes than a header has are output without frames. -/
structure DecodesWhole (frames : List Frame) (n : Nat) : Prop where
  framed : ¬((encodeFrames frames).take n).length < 8 →
    decodeDockerLogs ((encodeFrames frames).take n) =
      (decodeReplace ((streamBytes false (wholeFrames n frames)).take maxStreamBytes),
        decodeReplace ((streamBytes true (wholeFrames n frames)).take maxStreamBytes))
  unframed : ((encodeFrames frames).take n).length < 8 →
    decodeDockerLogs ((encodeFrames frames).take n) =
      (decodeReplace ((encodeFrames frames).take n), [])
  kept : ∀ isStderr, ∃ lost,
    payloadWithin isStderr n frames = streamBytes isStderr (wholeFrames n frames) ++ lost ∧
      (lost = [] ∨ LostPiece n frames isStderr lost)

theorem decodeDockerLogs_whole (frames : List Frame) (n : Nat) : DecodesWhole frames n where
  framed := decodeDockerLogs_framed
  unframed := decodeDockerLogs_short
  kept := fun isStderr => payloadWithin_eq isStderr frames n

/-- A cut behind the first of two bytes leaves none of them. -/
theorem cut_frame_lost : ¬DecodesWithin [⟨false, [0x61, 0x62], by decide⟩] 9 := by
  intro h
  rw [DecodesWithin, decodeDockerLogs_framed (by decide)] at h
  exact absurd h (by decide)

end Claim

end HardyAI.Tasks
