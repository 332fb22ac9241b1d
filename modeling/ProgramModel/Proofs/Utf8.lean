/-
# ProgramModel.Proofs.Utf8 -- what is written as bytes is read back as characters

A character is written as a leading byte and up to three more that continue it.  The
leading byte promises how many, and for some leading bytes the first of the others has
narrower bounds; `leadPromise_two`, `leadPromise_three` and `leadPromise_four` say that the
bytes of a character keep the promise.  So the glyph at the front of a written character
is the character (`glyphAt_utf8EncodeChar`), and a written text is read back as its
characters, with nothing malformed in between (`decode_encode`).
-/
import Mathlib.Data.Nat.Basic
import ProgramModel.Text.Utf8

namespace ProgramModel.Text

set_option autoImplicit false

/-! ## What leading bytes promise -/

theorem leadPromise_two {lead : Nat} (low : 0xC2 ≤ lead) (high : lead ≤ 0xDF) :
    leadPromise lead = some (1, 0x80, 0xBF) := by
  unfold leadPromise
  exact if_pos ⟨low, high⟩

theorem leadPromise_three {lead first : Nat} (low : 0xE0 ≤ lead) (high : lead ≤ 0xEF)
    (above : 0x80 ≤ first) (below : first ≤ 0xBF) (shortest : lead = 0xE0 → 0xA0 ≤ first)
    (noSurrogate : lead = 0xED → first ≤ 0x9F) :
    ∃ least greatest, leadPromise lead = some (2, least, greatest) ∧ least ≤ first ∧
      first ≤ greatest := by
  unfold leadPromise
  rw [if_neg (by omega)]
  by_cases least : lead = 0xE0
  · exact ⟨0xA0, 0xBF, if_pos least, shortest least, below⟩
  rw [if_neg least]
  by_cases surrogates : lead = 0xED
  · exact ⟨0x80, 0x9F, if_pos surrogates, above, noSurrogate surrogates⟩
  rw [if_neg surrogates]
  exact ⟨0x80, 0xBF, if_pos (by omega), above, below⟩

theorem leadPromise_four {lead first : Nat} (low : 0xF0 ≤ lead) (high : lead ≤ 0xF4)
    (above : 0x80 ≤ first) (below : first ≤ 0xBF) (shortest : lead = 0xF0 → 0x90 ≤ first)
    (inRange : lead = 0xF4 → first ≤ 0x8F) :
    ∃ least greatest, leadPromise lead = some (3, least, greatest) ∧ least ≤ first ∧
      first ≤ greatest := by
  unfold leadPromise
  rw [if_neg (by omega), if_neg (by omega), if_neg (by omega), if_neg (by omega)]
  by_cases least : lead = 0xF0
  · exact ⟨0x90, 0xBF, if_pos least, shortest least, below⟩
  rw [if_neg least]
  by_cases middle : 0xF1 ≤ lead ∧ lead ≤ 0xF3
  · exact ⟨0x80, 0xBF, if_pos middle, above, below⟩
  have last : lead = 0xF4 := by omega
  rw [if_neg middle]
  exact ⟨0x80, 0x8F, if_pos last, above, inRange last⟩

/-! ## Bytes that continue a character -/

theorem toNat_ofNat {value : Nat} (small : value < 256) : (UInt8.ofNat value).toNat = value := by
  rw [UInt8.toNat_ofNat']
  omega

theorem continuation_cons {least greatest value : Nat} (small : value < 256) (low : least ≤ value)
    (high : value ≤ greatest) (wanted : Nat) (rest : List UInt8) :
    continuation least greatest (wanted + 1) (UInt8.ofNat value :: rest) =
      value :: continuation 0x80 0xBF wanted rest := by
  have same := toNat_ofNat small
  rw [continuation, same, if_pos ⟨low, high⟩]

/-- Any six bits continue a character. -/
theorem continuation_bits (value wanted : Nat) (rest : List UInt8) :
    continuation 0x80 0xBF (wanted + 1) (UInt8.ofNat (value % 64 + 128) :: rest) =
      (value % 64 + 128) :: continuation 0x80 0xBF wanted rest :=
  continuation_cons (by omega) (by omega) (by omega) wanted rest

theorem continuation_zero (rest : List UInt8) : continuation 0x80 0xBF 0 rest = [] := rfl

/-- A leading byte whose promise is kept makes a character with the bytes that keep it. -/
theorem glyphAt_kept {lead wanted least greatest : Nat} {following : List Nat}
    {rest : List UInt8} (small : lead < 256) (high : 0x80 ≤ lead)
    (promise : leadPromise lead = some (wanted, least, greatest))
    (kept : continuation least greatest wanted rest = following)
    (length : following.length = wanted) :
    glyphAt (UInt8.ofNat lead) rest = (.char (Char.ofNat (codePoint lead following)), wanted) := by
  unfold glyphAt
  rw [toNat_ofNat small, if_neg (by omega), promise]
  simp only [kept, length, if_pos]

/-! ## Characters -/

theorem glyphAt_one {value : Nat} (high : value ≤ 127) (rest : List UInt8) :
    glyphAt (UInt8.ofNat value) rest = (.char (Char.ofNat value), 0) := by
  have byte : (UInt8.ofNat value).toNat = value := toNat_ofNat (by omega)
  rw [glyphAt, byte, if_pos (by omega)]

theorem glyphAt_two {value : Nat} (low : 127 < value) (high : value ≤ 2047) (rest : List UInt8) :
    glyphAt (UInt8.ofNat (value / 64 % 32 + 192)) (UInt8.ofNat (value % 64 + 128) :: rest) =
      (.char (Char.ofNat value), 1) := by
  have promise : leadPromise (value / 64 % 32 + 192) = some (1, 0x80, 0xBF) :=
    leadPromise_two (by omega) (by omega)
  have kept := continuation_bits value 0 rest
  rw [continuation_zero] at kept
  have point : codePoint (value / 64 % 32 + 192) [value % 64 + 128] = value := by
    simp only [codePoint, List.length_singleton, List.foldl_cons, List.foldl_nil]
    omega
  rw [glyphAt_kept (by omega) (by omega) promise kept rfl, point]

theorem glyphAt_three {value : Nat} (low : 2047 < value) (high : value ≤ 65535)
    (noSurrogate : value < 0xD800 ∨ 0xDFFF < value) (rest : List UInt8) :
    glyphAt (UInt8.ofNat (value / 4096 % 16 + 224)) (UInt8.ofNat (value / 64 % 64 + 128) ::
        UInt8.ofNat (value % 64 + 128) :: rest) = (.char (Char.ofNat value), 2) := by
  obtain ⟨least, greatest, promise, above, below⟩ :
      ∃ least greatest, leadPromise (value / 4096 % 16 + 224) = some (2, least, greatest) ∧
        least ≤ value / 64 % 64 + 128 ∧ value / 64 % 64 + 128 ≤ greatest :=
    leadPromise_three (by omega) (by omega) (by omega) (by omega) (by omega) (by omega)
  have kept := continuation_cons (by omega) above below 1 (UInt8.ofNat (value % 64 + 128) :: rest)
  rw [continuation_bits, continuation_zero] at kept
  have point : codePoint (value / 4096 % 16 + 224) [value / 64 % 64 + 128, value % 64 + 128] =
      value := by
    simp only [codePoint, List.length_cons, List.length_nil, List.foldl_cons, List.foldl_nil]
    omega
  rw [glyphAt_kept (by omega) (by omega) promise kept rfl, point]

theorem glyphAt_four {value : Nat} (low : 65535 < value) (high : value < 0x110000)
    (rest : List UInt8) :
    glyphAt (UInt8.ofNat (value / 262144 % 8 + 240)) (UInt8.ofNat (value / 4096 % 64 + 128) ::
        UInt8.ofNat (value / 64 % 64 + 128) :: UInt8.ofNat (value % 64 + 128) :: rest) =
      (.char (Char.ofNat value), 3) := by
  obtain ⟨least, greatest, promise, above, below⟩ :
      ∃ least greatest, leadPromise (value / 262144 % 8 + 240) = some (3, least, greatest) ∧
        least ≤ value / 4096 % 64 + 128 ∧ value / 4096 % 64 + 128 ≤ greatest :=
    leadPromise_four (by omega) (by omega) (by omega) (by omega) (by omega) (by omega)
  have kept := continuation_cons (by omega) above below 2
    (UInt8.ofNat (value / 64 % 64 + 128) :: UInt8.ofNat (value % 64 + 128) :: rest)
  rw [continuation_bits, continuation_bits, continuation_zero] at kept
  have point : codePoint (value / 262144 % 8 + 240)
      [value / 4096 % 64 + 128, value / 64 % 64 + 128, value % 64 + 128] = value := by
    simp only [codePoint, List.length_cons, List.length_nil, List.foldl_cons, List.foldl_nil]
    omega
  rw [glyphAt_kept (by omega) (by omega) promise kept rfl, point]

/-- **The glyph at the front of a written character is the character**, with all of its bytes. -/
theorem glyphAt_utf8EncodeChar (c : Char) (rest : List UInt8) :
    ∃ byte following, String.utf8EncodeChar c = byte :: following ∧
      glyphAt byte (following ++ rest) = (.char c, following.length) := by
  let value := c.toNat
  have valid : value < 0xD800 ∨ 0xDFFF < value ∧ value < 0x110000 := c.valid
  have same : Char.ofNat value = c := Char.ofNat_toNat c
  have unfolded : String.utf8EncodeChar c =
      if value ≤ 127 then [UInt8.ofNat value]
      else if value ≤ 2047 then
        [UInt8.ofNat (value / 64 % 32 + 192), UInt8.ofNat (value % 64 + 128)]
      else if value ≤ 65535 then
        [UInt8.ofNat (value / 4096 % 16 + 224), UInt8.ofNat (value / 64 % 64 + 128),
          UInt8.ofNat (value % 64 + 128)]
      else
        [UInt8.ofNat (value / 262144 % 8 + 240), UInt8.ofNat (value / 4096 % 64 + 128),
          UInt8.ofNat (value / 64 % 64 + 128), UInt8.ofNat (value % 64 + 128)] := rfl
  rw [unfolded, ← same]
  by_cases one : value ≤ 127
  · exact ⟨_, _, if_pos one, glyphAt_one one rest⟩
  rw [if_neg one]
  by_cases two : value ≤ 2047
  · exact ⟨_, _, if_pos two, glyphAt_two (by omega) two rest⟩
  rw [if_neg two]
  by_cases three : value ≤ 65535
  · exact ⟨_, _, if_pos three, glyphAt_three (by omega) three (by omega) rest⟩
  · exact ⟨_, _, if_neg three, glyphAt_four (by omega) (by omega) rest⟩

/-! ## Texts -/

theorem decodeFrom_append (pending rest : List UInt8) :
    decodeFrom pending.length (pending ++ rest) = decode rest := by
  induction pending with
  | nil => rfl
  | cons byte pending ih => exact ih

theorem decode_utf8EncodeChar_append (c : Char) (rest : List UInt8) :
    decode (String.utf8EncodeChar c ++ rest) = .char c :: decode rest := by
  obtain ⟨byte, following, bytes, glyph⟩ := glyphAt_utf8EncodeChar c rest
  rw [bytes, List.cons_append, decode, decodeFrom, glyph]
  simp only [decodeFrom_append]

/-- **What is written as bytes is read back.** -/
theorem decode_encode (text : List Char) : decode (encode text) = text.map .char := by
  induction text with
  | nil => rfl
  | cons c rest ih =>
      have step := decode_utf8EncodeChar_append c (encode rest)
      rw [ih] at step
      exact step

theorem decode?_encode (text : List Char) : decode? (encode text) = some text := by
  rw [decode?, decode_encode]
  induction text with
  | nil => rfl
  | cons c rest ih =>
      rw [List.map_cons, List.mapM_cons, ih]
      rfl

end ProgramModel.Text
