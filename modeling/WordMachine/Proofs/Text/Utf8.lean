import WordMachine.Text.Utf8

set_option autoImplicit false

/-! # What decoding finds

The bytes of a text are `List.utf8Encode` of its characters, and bytes that are no text begin with
the encoding of some characters nevertheless, if only of none. `decode` finds as many characters as
there are (`Longest`): it answers them if nothing is left over, and else the offset at which their
encoding ends (`exists_decode`). -/

namespace WordMachine.Text.Utf8

/-- The bytes begin with the encoding of these characters, and with no longer one. -/
structure Longest (bytes : ByteArray) (chars : List Char) : Prop where
  begins : ∃ rest, bytes = chars.utf8Encode ++ rest
  longest : ∀ (others : List Char) (rest : ByteArray), bytes = others.utf8Encode ++ rest →
    others.utf8Encode.size ≤ chars.utf8Encode.size

variable {bytes start rest tail : ByteArray} {c : Char} {chars : List Char}

/-! ## Single characters -/

theorem size_utf8Encode_singleton (c : Char) : [c].utf8Encode.size = c.utf8Size := by
  rw [List.utf8Encode_singleton, List.size_toByteArray, String.length_utf8EncodeChar]

theorem utf8DecodeChar?_append (start rest : ByteArray) :
    (start ++ rest).utf8DecodeChar? start.size = rest.utf8DecodeChar? 0 := by
  have hrest : (start ++ rest).extract start.size (start ++ rest).size = rest :=
    ByteArray.extract_append_eq_right rfl ByteArray.size_append
  rw [ByteArray.utf8DecodeChar?_eq_utf8DecodeChar?_extract, hrest]

theorem readFrom_of_none {offset : Nat} (h : bytes.utf8DecodeChar? offset = none)
    (before : Array Char) : readFrom bytes offset before = (before, offset) := by
  rw [readFrom]
  split
  · rfl
  · next c hc => rw [h] at hc; cases hc

theorem readFrom_of_some {offset : Nat} (h : bytes.utf8DecodeChar? offset = some c)
    (before : Array Char) :
    readFrom bytes offset before = readFrom bytes (offset + c.utf8Size) (before.push c) := by
  rw [readFrom]
  split
  · next hc => rw [h] at hc; cases hc
  · next d hd => rw [h] at hd; cases hd; rfl

/-! ## Characters one after the other -/

/-- Reading stops behind characters that are followed by no other. -/
theorem exists_readFrom (start rest : ByteArray) (before : Array Char) :
    ∃ (chars : List Char) (tail : ByteArray), rest = chars.utf8Encode ++ tail ∧
      tail.utf8DecodeChar? 0 = none ∧
      readFrom (start ++ rest) start.size before =
        (before ++ chars.toArray, start.size + chars.utf8Encode.size) := by
  -- The bytes that are left get fewer with every character.
  induction hn : rest.size using Nat.strongRecOn generalizing start rest before with
  | ind n ih =>
    cases hc : rest.utf8DecodeChar? 0 with
    | none =>
      have hread := readFrom_of_none ((utf8DecodeChar?_append start rest).trans hc) before
      exact ⟨[], rest, by simp, hc, by simp [hread]⟩
    | some c =>
      obtain ⟨later, rfl⟩ := ByteArray.exists_of_utf8DecodeChar?_eq_some hc
      rw [← List.utf8Encode_singleton] at hn hc ⊢
      have hsize := size_utf8Encode_singleton c
      have hpos := c.utf8Size_pos
      have hless : later.size < n := by
        rw [ByteArray.size_append] at hn
        omega
      have hread := readFrom_of_some ((utf8DecodeChar?_append start _).trans hc) before
      obtain ⟨chars, tail, rfl, htail, hlater⟩ :=
        ih later.size hless (start ++ [c].utf8Encode) later (before.push c) rfl
      rw [ByteArray.size_append, hsize, ByteArray.append_assoc] at hlater
      refine ⟨c :: chars, tail, ?_, htail, ?_⟩
      · rw [List.utf8Encode_cons (l := chars), ByteArray.append_assoc]
      · rw [hread, hlater, List.utf8Encode_cons (l := chars), ByteArray.size_append, hsize,
          Nat.add_assoc]
        simp

/-- Bytes that begin with characters which are followed by no other begin with no others. -/
theorem isPrefix_of_utf8Encode_append {others : List Char} (htail : tail.utf8DecodeChar? 0 = none)
    (h : chars.utf8Encode ++ tail = others.utf8Encode ++ rest) : others <+: chars := by
  induction others generalizing chars with
  | nil => exact List.nil_prefix
  | cons d others ih =>
    have hd : (chars.utf8Encode ++ tail).utf8DecodeChar? 0 = some d := by
      rw [h, List.utf8Encode_cons, ByteArray.append_assoc,
        List.utf8DecodeChar?_utf8Encode_singleton_append]
    cases chars with
    | nil =>
      rw [List.utf8Encode_nil, ByteArray.empty_append, htail] at hd
      cases hd
    | cons c chars =>
      rw [List.utf8Encode_cons, ByteArray.append_assoc,
        List.utf8DecodeChar?_utf8Encode_singleton_append] at hd
      cases hd
      rw [List.utf8Encode_cons (l := chars), List.utf8Encode_cons (l := others),
        ByteArray.append_assoc, ByteArray.append_assoc, ByteArray.append_right_inj] at h
      exact (List.prefix_cons_inj d).2 (ih h)

theorem utf8Encode_injective {others : List Char} (h : chars.utf8Encode = others.utf8Encode) :
    chars = others := by
  have hnone : ByteArray.empty.utf8DecodeChar? 0 = none := by rfl
  have hempty : chars.utf8Encode ++ .empty = others.utf8Encode ++ .empty := by rw [h]
  have hothers := isPrefix_of_utf8Encode_append hnone hempty
  have hchars := isPrefix_of_utf8Encode_append hnone hempty.symm
  exact hchars.eq_of_length (Nat.le_antisymm hchars.length_le hothers.length_le)

theorem longest_of_append (htail : tail.utf8DecodeChar? 0 = none) :
    Longest (chars.utf8Encode ++ tail) chars where
  begins := ⟨tail, rfl⟩
  longest others rest h := by
    obtain ⟨more, rfl⟩ := isPrefix_of_utf8Encode_append htail h
    rw [List.utf8Encode_append, ByteArray.size_append]
    exact Nat.le_add_right ..

/-! ## Decoding -/

theorem exists_decode (bytes : ByteArray) :
    ∃ chars, Longest bytes chars ∧ (bytes = chars.utf8Encode → decode bytes = .ok chars) ∧
      (bytes ≠ chars.utf8Encode →
        ∃ flaw, decode bytes = .error ⟨flaw, chars.utf8Encode.size⟩) := by
  obtain ⟨chars, tail, rfl, htail, hread⟩ := exists_readFrom .empty bytes #[]
  rw [ByteArray.empty_append, ByteArray.size_empty, Nat.zero_add] at hread
  have hall : chars.utf8Encode ++ tail = chars.utf8Encode ↔
      chars.utf8Encode.size = (chars.utf8Encode ++ tail).size := by
    rw [ByteArray.size_append]
    constructor
    · intro h
      have hsize := congrArg ByteArray.size h
      rw [ByteArray.size_append] at hsize
      omega
    · intro h
      have hempty : tail = .empty := ByteArray.size_eq_zero_iff.1 (by omega)
      rw [hempty, ByteArray.append_empty]
  refine ⟨chars, longest_of_append htail, fun h => ?_, fun h => ?_⟩
  · simp only [decode, hread, if_pos (hall.1 h)]
    simp
  · simp only [decode, hread, if_neg (fun hsize => h (hall.2 hsize))]
    exact ⟨_, rfl⟩

/-- Characters that are encoded are decoded. -/
theorem decode_utf8Encode (chars : List Char) : decode chars.utf8Encode = .ok chars := by
  obtain ⟨found, ⟨⟨rest, hbegins⟩, hlongest⟩, hall, -⟩ := exists_decode chars.utf8Encode
  have hle := hlongest chars .empty (by rw [ByteArray.append_empty])
  have hsize := congrArg ByteArray.size hbegins
  rw [ByteArray.size_append] at hsize
  have hempty : rest = .empty := ByteArray.size_eq_zero_iff.1 (by omega)
  rw [hempty, ByteArray.append_empty] at hbegins
  obtain rfl := utf8Encode_injective hbegins
  exact hall rfl

end WordMachine.Text.Utf8
