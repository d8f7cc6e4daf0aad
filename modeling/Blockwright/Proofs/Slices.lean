import Blockwright.Proofs.Grammar

/-!
# Slices of texts

A text is cut by byte positions, and only at boundaries between characters. A part of a text is cut
out exactly at the size of what stands before it and that size and its own. Two texts have the same
bytes up to the case of ASCII letters exactly if they have the same characters up to it, so a
comparison by bytes never cuts a character.
-/

namespace Blockwright.Text

/-! ### Bytes -/

/-- The bytes of a text. -/
def bytes (text : String) : List UInt8 := text.toByteArray.data.toList

private theorem bytes_eq (text : String) :
    bytes text = text.toList.flatMap String.utf8EncodeChar := by
  rw [bytes, ← String.utf8Encode_toList, List.utf8Encode, List.toList_data_toByteArray]

/-- The bytes of two texts behind each other. -/
theorem bytes_append (first second : String) :
    bytes (first ++ second) = bytes first ++ bytes second := by
  rw [bytes_eq, bytes_eq, bytes_eq, String.toList_append, List.flatMap_append]

/-- There are as many bytes as the size of a text. -/
theorem length_bytes (text : String) : (bytes text).length = text.utf8ByteSize := by
  rw [bytes, Array.length_toList]
  rfl

private theorem bytes_injective {first second : String} (h : bytes first = bytes second) :
    first = second := by
  apply String.toByteArray_inj.mp
  exact ByteArray.ext (Array.toList_inj.mp h)

/-! ### Bytes up to the case of letters -/

/-- The lower-case form of the byte of an ASCII letter; any other byte is kept. -/
def lowerByte (b : UInt8) : UInt8 := if 65 ≤ b ∧ b ≤ 90 then b + 32 else b

/-- Whether two texts have the same bytes up to the case of ASCII letters. -/
def sameBytes (first second : String) : Bool :=
  (bytes first).map lowerByte == (bytes second).map lowerByte

private theorem utf8EncodeChar_of_lt {c : Char} (h : c.toNat < 128) :
    String.utf8EncodeChar c = [UInt8.ofNat c.toNat] :=
  if_pos (Nat.le_of_lt_succ h)

/-- The size of an ASCII character is one. -/
theorem utf8Size_of_lt {c : Char} (h : c.toNat < 128) : c.utf8Size = 1 := by
  rw [← String.length_utf8EncodeChar, utf8EncodeChar_of_lt h, List.length_singleton]

private theorem le_of_mem_utf8EncodeChar {c : Char} (h : 128 ≤ c.toNat) :
    ∀ b ∈ String.utf8EncodeChar c, 128 ≤ b.toNat := by
  have hn : ¬ c.val.toNat ≤ 127 := by
    change ¬ c.toNat ≤ 127
    omega
  intro b hb
  rw [String.utf8EncodeChar, if_neg hn] at hb
  split_ifs at hb <;>
    simp only [List.mem_cons, List.not_mem_nil, or_false] at hb
  · rcases hb with rfl | rfl <;> rw [UInt8.toNat_ofNat'] <;> omega
  · rcases hb with rfl | rfl | rfl <;> rw [UInt8.toNat_ofNat'] <;> omega
  · rcases hb with rfl | rfl | rfl | rfl <;> rw [UInt8.toNat_ofNat'] <;> omega

private theorem mem_utf8EncodeChar_iff {mark c : Char} (hm : mark.toNat < 128) :
    UInt8.ofNat mark.toNat ∈ String.utf8EncodeChar c ↔ c = mark := by
  have hbyte : (UInt8.ofNat mark.toNat).toNat = mark.toNat :=
    UInt8.toNat_ofNat_of_lt' (by change mark.toNat < 256; omega)
  constructor
  · intro h
    by_cases hc : c.toNat < 128
    · rw [utf8EncodeChar_of_lt hc, List.mem_singleton, ← UInt8.toNat_inj, hbyte,
        UInt8.toNat_ofNat_of_lt' (by change c.toNat < 256; omega)] at h
      exact Char.toNat_inj.mp h.symm
    · have hlarge := le_of_mem_utf8EncodeChar (Nat.le_of_not_lt hc) _ h
      omega
  · rintro rfl
    rw [utf8EncodeChar_of_lt hm]
    exact List.mem_singleton_self _

/-- A text starts with the byte of an ASCII character exactly if it starts with the character. -/
theorem head?_bytes_eq_iff {mark : Char} (hm : mark.toNat < 128) (cs : List Char) :
    (bytes (String.ofList cs)).head? = some (UInt8.ofNat mark.toNat) ↔ cs.head? = some mark := by
  rw [bytes_eq, String.toList_ofList]
  cases cs with
  | nil => simp
  | cons c cs =>
    rw [List.flatMap_cons, List.head?_append, List.head?_eq_some_head String.utf8EncodeChar_ne_nil,
      Option.some_or, List.head?_cons, Option.some.injEq, Option.some.injEq]
    constructor
    · intro h
      apply (mem_utf8EncodeChar_iff hm).mp
      rw [← h]
      exact List.head_mem _
    · rintro rfl
      simp only [utf8EncodeChar_of_lt hm, List.head_cons]

/-- A text ends with the byte of an ASCII character exactly if it ends with the character. -/
theorem getLast?_bytes_eq_iff {mark : Char} (hm : mark.toNat < 128) (cs : List Char) :
    (bytes (String.ofList cs)).getLast? = some (UInt8.ofNat mark.toNat) ↔
      cs.getLast? = some mark := by
  rw [bytes_eq, String.toList_ofList]
  rcases List.eq_nil_or_concat cs with rfl | ⟨cs, c, rfl⟩
  · simp
  · rw [List.concat_eq_append, List.flatMap_append, List.flatMap_singleton, List.getLast?_append,
      List.getLast?_eq_some_getLast String.utf8EncodeChar_ne_nil, Option.some_or,
      List.getLast?_concat, Option.some.injEq, Option.some.injEq]
    constructor
    · intro h
      apply (mem_utf8EncodeChar_iff hm).mp
      rw [← h]
      exact List.getLast_mem _
    · rintro rfl
      simp only [utf8EncodeChar_of_lt hm, List.getLast_singleton]

private theorem toNat_lowerByte (b : UInt8) : (lowerByte b).toNat =
    if 65 ≤ b.toNat ∧ b.toNat ≤ 90 then b.toNat + 32 else b.toNat := by
  have hr : (65 ≤ b ∧ b ≤ 90) ↔ 65 ≤ b.toNat ∧ b.toNat ≤ 90 := by
    rw [UInt8.le_iff_toNat_le, UInt8.le_iff_toNat_le]
    rfl
  simp only [lowerByte, hr]
  split
  · rw [UInt8.toNat_add]
    exact Nat.mod_eq_of_lt (by change b.toNat + 32 < 256; omega)
  · rfl

private theorem map_lowerByte_utf8EncodeChar (c : Char) :
    (String.utf8EncodeChar c).map lowerByte = String.utf8EncodeChar (lowerAscii c) := by
  have hlower := Script.toNat_lowerAscii c
  by_cases h : c.toNat < 128
  · have hsmall : (lowerAscii c).toNat < 128 := by
      rw [hlower]
      split <;> omega
    rw [utf8EncodeChar_of_lt h, utf8EncodeChar_of_lt hsmall, List.map_singleton,
      List.singleton_inj, ← UInt8.toNat_inj, toNat_lowerByte, hlower,
      UInt8.toNat_ofNat_of_lt' (by change c.toNat < 256; omega)]
    split <;> rw [UInt8.toNat_ofNat_of_lt'] <;> change _ < 256 <;> omega
  · have hsame : lowerAscii c = c := by
      rw [← Char.toNat_inj, hlower, if_neg (by omega)]
    have hkept : ∀ b ∈ String.utf8EncodeChar c, lowerByte b = id b := by
      intro b hb
      have hb := le_of_mem_utf8EncodeChar (Nat.le_of_not_lt h) b hb
      rw [← UInt8.toNat_inj, toNat_lowerByte, if_neg (by omega), id]
    rw [hsame, List.map_congr_left hkept, List.map_id]

private theorem map_lowerByte_bytes (text : String) : (bytes text).map lowerByte =
    bytes (String.ofList (text.toList.map lowerAscii)) := by
  rw [bytes_eq, bytes_eq, String.toList_ofList, List.map_flatMap, List.flatMap_map]
  simp only [map_lowerByte_utf8EncodeChar]

/-- Texts agree by bytes exactly if they agree by characters. -/
theorem sameBytes_eq (first second : String) :
    sameBytes first second = sameLetters first.toList second.toList := by
  rw [Bool.eq_iff_iff, sameBytes, sameLetters, beq_iff_eq, beq_iff_eq, map_lowerByte_bytes,
    map_lowerByte_bytes]
  constructor
  · intro h
    exact String.ofList_inj.mp (bytes_injective h)
  · intro h
    rw [h]

/-- Texts that agree up to the case of letters have the same size. -/
theorem utf8ByteSize_eq_of_sameBytes {first second : String} (h : sameBytes first second) :
    first.utf8ByteSize = second.utf8ByteSize := by
  have hlength := congrArg List.length (beq_iff_eq.mp h)
  rwa [List.length_map, List.length_map, length_bytes, length_bytes] at hlength

/-! ### Boundaries -/

/-- A byte position is a boundary between characters. -/
def IsBoundary (text : String) (i : Nat) : Prop := String.Pos.Raw.IsValid text ⟨i⟩

instance (text : String) (i : Nat) : Decidable (IsBoundary text i) :=
  inferInstanceAs (Decidable (String.Pos.Raw.IsValid text ⟨i⟩))

/-- A boundary cuts a text in two. -/
theorem isBoundary_iff {text : String} {i : Nat} : IsBoundary text i ↔
    ∃ before behind, text = before ++ behind ∧ i = before.utf8ByteSize := by
  rw [IsBoundary, String.Pos.Raw.isValid_iff_exists_append]
  simp only [String.Pos.Raw.ext_iff, String.byteIdx_rawEndPos]

/-- A boundary is not behind the end of the text. -/
theorem IsBoundary.le {text : String} {i : Nat} (h : IsBoundary text i) :
    i ≤ text.utf8ByteSize := by
  obtain ⟨before, behind, rfl, rfl⟩ := isBoundary_iff.mp h
  rw [String.utf8ByteSize_append]
  omega

/-! ### Slices -/

/-- The part of a text between two byte positions, unless one of them is no boundary or the second
is before the first. -/
def slice? (text : String) (start stop : Nat) : Option String :=
  if start ≤ stop ∧ IsBoundary text start ∧ IsBoundary text stop then
    String.fromUTF8? (text.toByteArray.extract start stop)
  else none

private theorem slice?_append (before part behind : String) :
    slice? (before ++ part ++ behind) before.utf8ByteSize
      (before.utf8ByteSize + part.utf8ByteSize) = some part := by
  have hstart : IsBoundary (before ++ part ++ behind) before.utf8ByteSize :=
    isBoundary_iff.mpr ⟨before, part ++ behind, String.append_assoc, rfl⟩
  have hstop : IsBoundary (before ++ part ++ behind)
      (before.utf8ByteSize + part.utf8ByteSize) :=
    isBoundary_iff.mpr ⟨before ++ part, behind, rfl, (String.utf8ByteSize_append ..).symm⟩
  have hextract : (before ++ part ++ behind).toByteArray.extract before.utf8ByteSize
      (before.utf8ByteSize + part.utf8ByteSize) = part.toByteArray := by
    rw [String.append_assoc, String.toByteArray_append, String.toByteArray_append]
    exact (@ByteArray.extract_append_size_add before.toByteArray _ 0 part.toByteArray.size).trans
      (ByteArray.extract_append_eq_left rfl)
  rw [slice?, if_pos ⟨Nat.le_add_right _ _, hstart, hstop⟩, hextract, String.fromUTF8?,
    dif_pos part.isValidUTF8]
  rfl

private theorem bytes_of_slice? {text part : String} {start stop : Nat}
    (h : slice? text start stop = some part) :
    bytes part = ((bytes text).take stop).drop start := by
  unfold slice? String.fromUTF8? at h
  split at h
  · split at h
    · cases h
      change (text.toByteArray.extract start stop).data.toList = _
      rw [ByteArray.data_extract, Array.toList_extract, List.extract_eq_take_drop, List.drop_take]
      rfl
    · cases h
  · cases h

/-- A text between two positions is cut out exactly if it stands there. -/
theorem slice?_eq_some_iff {text part : String} {start stop : Nat} :
    slice? text start stop = some part ↔ ∃ before behind, text = before ++ part ++ behind ∧
      start = before.utf8ByteSize ∧ stop = before.utf8ByteSize + part.utf8ByteSize := by
  constructor
  · intro h
    have hpart := bytes_of_slice? h
    unfold slice? at h
    split at h
    · next hbounds =>
      obtain ⟨hle, hstart, hstop⟩ := hbounds
      obtain ⟨before, others, hbefore, rfl⟩ := isBoundary_iff.mp hstart
      obtain ⟨through, behind, hbehind, rfl⟩ := isBoundary_iff.mp hstop
      have htake {first second : String} (h : text = first ++ second) :
          (bytes text).take first.utf8ByteSize = bytes first := by
        rw [h, bytes_append, ← length_bytes, List.take_left]
      -- The part goes on where the text before it ends.
      have hthrough : before ++ part = through := by
        have hfirst : bytes before = (bytes through).take before.utf8ByteSize := by
          rw [← htake hbefore, ← htake hbehind, List.take_take, Nat.min_eq_left hle]
        rw [htake hbehind] at hpart
        apply bytes_injective
        rw [bytes_append, hpart, hfirst, List.take_append_drop]
      refine ⟨before, behind, ?_, rfl, ?_⟩
      · rw [hthrough, hbehind]
      · rw [← hthrough, String.utf8ByteSize_append]
    · cases h
  · rintro ⟨before, behind, rfl, rfl, rfl⟩
    exact slice?_append before part behind

/-- The first of two texts behind each other is cut out from the start. -/
theorem slice?_left (head behind : String) :
    slice? (head ++ behind) 0 head.utf8ByteSize = some head :=
  slice?_eq_some_iff.mpr ⟨"", behind, by rw [String.empty_append], rfl, by simp⟩

/-- The second of two texts behind each other is cut out up to the end. -/
theorem slice?_right (head behind : String) :
    slice? (head ++ behind) head.utf8ByteSize (head ++ behind).utf8ByteSize = some behind :=
  slice?_eq_some_iff.mpr
    ⟨head, "", by rw [String.append_empty], rfl, String.utf8ByteSize_append ..⟩

/-- What is cut out from the start is the start of the text. -/
theorem exists_append_of_slice? {text head : String} {stop : Nat}
    (h : slice? text 0 stop = some head) :
    ∃ behind, text = head ++ behind ∧ head.utf8ByteSize = stop := by
  obtain ⟨before, behind, htext, hzero, hstop⟩ := slice?_eq_some_iff.mp h
  have hbefore : before = "" := String.utf8ByteSize_eq_zero_iff.mp hzero.symm
  rw [hbefore, String.empty_append] at htext
  exact ⟨behind, htext, by omega⟩

end Blockwright.Text
