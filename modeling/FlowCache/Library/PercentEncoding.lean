import Mathlib.Data.List.Basic

/-!
# Percent-encoding

A text is encoded character by character: some characters are kept, each of the others
becomes its UTF-8 bytes, written as `%` and two upper-case hexadecimal digits.  Decoding
copies what is not escaped and reads every run of escapes as UTF-8; an incomplete escape
and a run that is not UTF-8 are errors.

Decoding an encoded text gives the text back.  A text that contains `%` is never its own
decoding, since an escape is longer than what it stands for.
-/

namespace PercentEncoding

/-- The upper-case digit of a number below sixteen. -/
def hexDigit (value : Nat) : Char :=
  Char.ofNat (if value < 10 then 48 + value else 55 + value)

/-- The number a hexadecimal digit of either case stands for. -/
def hexValue (digit : Char) : Option Nat :=
  if '0' ≤ digit ∧ digit ≤ '9' then some (digit.toNat - 48)
  else if 'A' ≤ digit ∧ digit ≤ 'F' then some (digit.toNat - 55)
  else if 'a' ≤ digit ∧ digit ≤ 'f' then some (digit.toNat - 87)
  else none

/-- A byte as an escape. -/
def escape (byte : UInt8) : List Char :=
  ['%', hexDigit (byte.toNat / 16), hexDigit (byte.toNat % 16)]

/-- The byte of two digits. -/
def byteOf (high low : Char) : Option UInt8 :=
  (hexValue high).bind fun upper =>
    (hexValue low).map fun lower => UInt8.ofNat (16 * upper + lower)

/-- Encode a text; `keep` says which characters stay as they are. -/
def encode (keep : Char → Bool) (text : List Char) : List Char :=
  text.flatMap fun char =>
    if keep char then [char] else (String.utf8EncodeChar char).flatMap escape

/-- Read at most `fuel` characters of UTF-8. -/
def readUtf8 : (fuel : Nat) → List UInt8 → Option (List Char)
  | _, [] => some []
  | 0, _ :: _ => none
  | fuel + 1, byte :: rest =>
      match (byte :: rest).toByteArray.utf8DecodeChar? 0 with
      | none => none
      | some char =>
          (readUtf8 fuel ((byte :: rest).drop char.utf8Size)).map fun later => char :: later

/-- Read bytes as UTF-8. -/
def ofUtf8 (bytes : List UInt8) : Option (List Char) :=
  readUtf8 bytes.length bytes

/-- Decode a text, given the bytes of the escapes directly before it. -/
def decode : (pending : List UInt8) → List Char → Option (List Char)
  | pending, [] => ofUtf8 pending
  | pending, char :: rest =>
      if char = '%' then
        match rest with
        | high :: low :: later =>
            (byteOf high low).bind fun byte => decode (pending ++ [byte]) later
        | _ => none
      else
        (ofUtf8 pending).bind fun decoded =>
          (decode [] rest).map fun later => decoded ++ char :: later

/-! ## Bytes -/

theorem hexValue_hexDigit : ∀ value < 16, hexValue (hexDigit value) = some value := by
  decide

theorem byteOf_escape (byte : UInt8) :
    byteOf (hexDigit (byte.toNat / 16)) (hexDigit (byte.toNat % 16)) = some byte := by
  have bounded := byte.toNat_lt
  rw [byteOf, hexValue_hexDigit _ (by omega), hexValue_hexDigit _ (by omega),
    Option.bind_some, Option.map_some, Nat.div_add_mod, UInt8.ofNat_toNat]

theorem decode_escapes (pending bytes : List UInt8) (rest : List Char) :
    decode pending (bytes.flatMap escape ++ rest) = decode (pending ++ bytes) rest := by
  induction bytes generalizing pending with
  | nil => rw [List.flatMap_nil, List.nil_append, List.append_nil]
  | cons byte later ih =>
      have first : decode pending (escape byte ++ (later.flatMap escape ++ rest)) =
          decode (pending ++ [byte]) (later.flatMap escape ++ rest) := by
        simp only [escape, List.cons_append, List.nil_append, decode, if_pos,
          byteOf_escape, Option.bind_some]
      rw [List.flatMap_cons, List.append_assoc, first, ih, List.append_assoc,
        List.singleton_append]

theorem readUtf8_utf8EncodeChar (text : List Char) {fuel : Nat}
    (enough : (text.flatMap String.utf8EncodeChar).length ≤ fuel) :
    readUtf8 fuel (text.flatMap String.utf8EncodeChar) = some text := by
  induction text generalizing fuel with
  | nil => cases fuel <;> rfl
  | cons char rest ih =>
      have size := String.length_utf8EncodeChar char
      have positive := char.utf8Size_pos
      rw [List.flatMap_cons, List.length_append] at enough
      obtain ⟨fuel, rfl⟩ : ∃ smaller, fuel = smaller + 1 := ⟨fuel - 1, by omega⟩
      obtain ⟨byte, more, bytes⟩ : ∃ byte more, String.utf8EncodeChar char = byte :: more :=
        List.exists_cons_of_length_pos (by omega)
      have found : (String.utf8EncodeChar char ++
          rest.flatMap String.utf8EncodeChar).toByteArray.utf8DecodeChar? 0 = some char := by
        rw [List.toByteArray_append]
        exact ByteArray.utf8DecodeChar?_utf8EncodeChar_append
      have dropped : (String.utf8EncodeChar char ++
          rest.flatMap String.utf8EncodeChar).drop char.utf8Size =
            rest.flatMap String.utf8EncodeChar := by
        rw [← size, List.drop_left]
      rw [List.flatMap_cons]
      rw [bytes, List.cons_append] at found dropped ⊢
      rw [readUtf8, found]
      simp only
      rw [dropped, ih (by omega), Option.map_some]

theorem ofUtf8_utf8EncodeChar (text : List Char) :
    ofUtf8 (text.flatMap String.utf8EncodeChar) = some text :=
  readUtf8_utf8EncodeChar text (Nat.le_refl _)

theorem length_readUtf8_le {fuel : Nat} {bytes : List UInt8} {text : List Char}
    (read : readUtf8 fuel bytes = some text) : text.length ≤ bytes.length := by
  induction fuel generalizing bytes text with
  | zero =>
      cases bytes with
      | nil => cases read; exact Nat.le_refl _
      | cons byte rest => cases read
  | succ fuel ih =>
      cases bytes with
      | nil => cases read; exact Nat.le_refl _
      | cons byte rest =>
          rw [readUtf8] at read
          split at read
          · cases read
          · next char _ =>
              obtain ⟨later, readLater, rfl⟩ := Option.map_eq_some_iff.mp read
              have shorter := ih readLater
              have positive := char.utf8Size_pos
              rw [List.length_drop, List.length_cons] at shorter
              rw [List.length_cons, List.length_cons]
              omega

/-! ## Round trips -/

theorem decode_of_ne {char : Char} (plain : char ≠ '%') (pending : List UInt8)
    (rest : List Char) :
    decode pending (char :: rest) = (ofUtf8 pending).bind fun decoded =>
      (decode [] rest).map fun later => decoded ++ char :: later := by
  rw [decode.eq_def]
  exact if_neg plain

variable {keep : Char → Bool}

theorem encode_cons (char : Char) (rest : List Char) :
    encode keep (char :: rest) =
      (if keep char then [char] else (String.utf8EncodeChar char).flatMap escape) ++
        encode keep rest :=
  List.flatMap_cons

/-- The escapes of the characters before an encoded text are read along with it. -/
theorem decode_encode_after (percent : keep '%' = false) (before text : List Char) :
    decode (before.flatMap String.utf8EncodeChar) (encode keep text) =
      some (before ++ text) := by
  induction text generalizing before with
  | nil =>
      rw [List.append_nil]
      exact ofUtf8_utf8EncodeChar before
  | cons char rest ih =>
      rw [encode_cons]
      by_cases kept : keep char
      · have plain : char ≠ '%' := by
          rintro rfl
          rw [percent] at kept
          cases kept
        rw [if_pos kept, List.singleton_append, decode_of_ne plain, ofUtf8_utf8EncodeChar,
          Option.bind_some, show decode [] (encode keep rest) = some rest from ih [],
          Option.map_some]
      · have longer : (before ++ [char]).flatMap String.utf8EncodeChar =
            before.flatMap String.utf8EncodeChar ++ String.utf8EncodeChar char := by
          rw [List.flatMap_append, List.flatMap_singleton]
        rw [if_neg kept, decode_escapes, ← longer, ih, List.append_assoc,
          List.singleton_append]

theorem decode_encode (percent : keep '%' = false) (text : List Char) :
    decode [] (encode keep text) = some text :=
  decode_encode_after percent [] text

theorem encode_injective (percent : keep '%' = false) : Function.Injective (encode keep) := by
  intro first second same
  have decoded := decode_encode percent first
  rw [same, decode_encode percent second] at decoded
  exact (Option.some.inj decoded).symm

/-- An encoded text has the kept characters, `%` and digits. -/
theorem mem_encode {text : List Char} {char : Char} (member : char ∈ encode keep text) :
    keep char = true ∨ char = '%' ∨ ∃ value < 16, char = hexDigit value := by
  obtain ⟨source, -, inside⟩ := List.mem_flatMap.mp member
  split at inside
  · next kept =>
      rw [List.mem_singleton.mp inside]
      exact .inl kept
  · obtain ⟨byte, -, escaped⟩ := List.mem_flatMap.mp inside
    have bounded := byte.toNat_lt
    simp only [escape, List.mem_cons, List.not_mem_nil, or_false] at escaped
    rcases escaped with same | same | same
    · exact .inr (.inl same)
    · exact .inr (.inr ⟨_, by omega, same⟩)
    · exact .inr (.inr ⟨_, by omega, same⟩)

/-! ## Texts that are their own decoding -/

theorem decode_of_not_mem {text : List Char} (plain : '%' ∉ text) :
    decode [] text = some text := by
  induction text with
  | nil => rfl
  | cons char rest ih =>
      rw [List.mem_cons, not_or] at plain
      rw [decode_of_ne (Ne.symm plain.1), ih plain.2]
      rfl

/-- Decoding makes nothing longer, and a text with an escape shorter. -/
theorem length_decode_le (pending : List UInt8) (text : List Char) {decoded : List Char}
    (result : decode pending text = some decoded) :
    decoded.length ≤ pending.length + text.length ∧
      ('%' ∈ text → decoded.length < pending.length + text.length) := by
  induction size : text.length using Nat.strongRecOn
    generalizing pending text decoded with
  | ind size ih =>
      cases text with
      | nil =>
          refine ⟨?_, fun member => absurd member List.not_mem_nil⟩
          exact Nat.le_add_right_of_le (length_readUtf8_le result)
      | cons char rest =>
          rw [List.length_cons] at size
          by_cases percent : char = '%'
          · subst percent
            rw [decode.eq_def] at result
            simp only [if_true] at result
            split at result
            · next high low later =>
                obtain ⟨byte, -, decodedLater⟩ := Option.bind_eq_some_iff.mp result
                simp only [List.length_cons] at size
                have shorter := (ih later.length (by omega) _ later decodedLater rfl).1
                rw [List.length_append, List.length_singleton] at shorter
                omega
            · cases result
          · rw [decode_of_ne percent] at result
            obtain ⟨first, readFirst, result⟩ := Option.bind_eq_some_iff.mp result
            obtain ⟨later, decodedLater, rfl⟩ := Option.map_eq_some_iff.mp result
            have before := length_readUtf8_le readFirst
            obtain ⟨le, lt⟩ := ih rest.length (by omega) [] rest decodedLater rfl
            rw [List.length_nil, Nat.zero_add] at le lt
            rw [List.length_append, List.length_cons]
            refine ⟨by omega, ?_⟩
            intro member
            have inside := lt ((List.mem_cons.mp member).resolve_left (Ne.symm percent))
            omega

theorem decode_eq_self_iff (text : List Char) :
    decode [] text = some text ↔ '%' ∉ text := by
  constructor
  · intro same member
    have shorter := (length_decode_le [] text same).2 member
    rw [List.length_nil, Nat.zero_add] at shorter
    exact Nat.lt_irrefl _ shorter
  · exact decode_of_not_mem

end PercentEncoding
