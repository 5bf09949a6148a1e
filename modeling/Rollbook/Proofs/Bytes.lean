import Mathlib.Data.List.Basic

/-!
# Rollbook — texts as bytes

A text is stored in UTF-8, and much can be asked of the bytes that need not know the characters. A
character of ASCII is one byte, its own number; every other character is written in bytes that ASCII
does not use, of which only the first is no continuation. So a condition on ASCII characters can be
checked byte by byte, characters can be counted by their first bytes, and a text that starts with
the bytes of another starts with the other.

* `Text.forall_bytes_iff` — a condition on ASCII characters, byte by byte.
* `Text.countP_leads`     — as many first bytes as characters.
* `Text.bytes_injective`  — a text is known by its bytes.
* `Text.exists_bytes_eq`  — bytes of ASCII are the bytes of a text.
-/

namespace Rollbook.Text

/-- The bytes of a text in UTF-8. -/
def bytes (s : String) : List UInt8 := s.toByteArray.data.toList

/-- The byte starts a character: it is none of those that continue one. -/
def leads (b : UInt8) : Bool := b.toNat / 0x40 != 2

variable {s : String} {c : Char} {P : Nat → Prop}

/-- The bytes of a text are those of its characters, one after the other. All that follows is shown
of a character first. -/
theorem bytes_eq_flatMap (s : String) : bytes s = s.toList.flatMap String.utf8EncodeChar := by
  rw [bytes, ← String.utf8Encode_toList, List.utf8Encode, List.data_toByteArray]

theorem length_bytes (s : String) : (bytes s).length = s.utf8ByteSize := rfl

theorem bytes_append (s t : String) : bytes (s ++ t) = bytes s ++ bytes t := by
  simp only [bytes_eq_flatMap, String.toList_append, List.flatMap_append]

/-- Different texts have different bytes. -/
theorem bytes_injective : Function.Injective bytes := by
  intro s t h
  exact String.toByteArray_inj.1 (ByteArray.ext (Array.toList_inj.1 h))

theorem bytes_eq_nil_iff : bytes s = [] ↔ s = "" :=
  ⟨fun h => bytes_injective h, fun h => h ▸ rfl⟩

-- ---------------------------------------------------------------------------
-- Single characters
-- ---------------------------------------------------------------------------

/-- A character of ASCII is written as its number. -/
theorem encode_of_ascii (h : c.toNat < 128) :
    String.utf8EncodeChar c = [UInt8.ofNat c.toNat] :=
  if_pos (Nat.le_of_lt_succ h)

/-- Every other character ends in a byte that ASCII does not use. -/
theorem exists_high_of_not_ascii (h : ¬c.toNat < 128) :
    ∃ b ∈ String.utf8EncodeChar c, 128 ≤ b.toNat := by
  have hlarge : ¬c.val.toNat ≤ 127 := fun hsmall => h (Nat.lt_succ_of_le hsmall)
  refine ⟨UInt8.ofNat (c.val.toNat % 64 + 128), ?_, ?_⟩
  · rw [String.utf8EncodeChar]
    simp only [if_neg hlarge]
    split
    · simp
    · split <;> simp
  · rw [UInt8.toNat_ofNat']
    omega

/-- A condition that only numbers of ASCII meet is met by all bytes of a character if the character
meets it. -/
theorem forall_encode_iff (hascii : ∀ n, P n → n < 128) (c : Char) :
    (∀ b ∈ String.utf8EncodeChar c, P b.toNat) ↔ P c.toNat := by
  by_cases hchar : c.toNat < 128
  · have hbyte : (UInt8.ofNat c.toNat).toNat = c.toNat := by
      rw [UInt8.toNat_ofNat']
      omega
    rw [encode_of_ascii hchar, List.forall_mem_singleton, hbyte]
  · obtain ⟨b, hb, hhigh⟩ := exists_high_of_not_ascii hchar
    refine iff_of_false (fun hall => ?_) fun h => hchar (hascii _ h)
    exact absurd (hascii _ (hall b hb)) (Nat.not_lt.2 hhigh)

/-- A character has one first byte. -/
theorem countP_leads_encode (c : Char) : (String.utf8EncodeChar c).countP leads = 1 := by
  have hfirst : ∀ n, n < 0x80 ∨ 0xc0 ≤ n ∧ n < 0x100 → leads (UInt8.ofNat n) = true := by
    intro n hn
    rw [leads, UInt8.toNat_ofNat', bne_iff_ne]
    omega
  have hother : ∀ n, ¬leads (UInt8.ofNat (n % 0x40 + 0x80)) = true := by
    intro n
    rw [leads, UInt8.toNat_ofNat', bne_iff_ne]
    omega
  rw [String.utf8EncodeChar]
  generalize c.val.toNat = v
  -- by the number of bytes that the character takes
  split
  · rw [List.countP_cons_of_pos (hfirst _ (by omega)), List.countP_nil]
  · split
    · rw [List.countP_cons_of_pos (hfirst _ (by omega)), List.countP_cons_of_neg (hother _),
        List.countP_nil]
    · split
      · rw [List.countP_cons_of_pos (hfirst _ (by omega)), List.countP_cons_of_neg (hother _),
          List.countP_cons_of_neg (hother _), List.countP_nil]
      · rw [List.countP_cons_of_pos (hfirst _ (by omega)), List.countP_cons_of_neg (hother _),
          List.countP_cons_of_neg (hother _), List.countP_cons_of_neg (hother _), List.countP_nil]

-- ---------------------------------------------------------------------------
-- Texts
-- ---------------------------------------------------------------------------

/-- **A condition on the characters of ASCII can be checked byte by byte.** -/
theorem forall_bytes_iff (hascii : ∀ n, P n → n < 128) (s : String) :
    (∀ b ∈ bytes s, P b.toNat) ↔ ∀ c ∈ s.toList, P c.toNat := by
  simp only [← forall_encode_iff hascii, bytes_eq_flatMap, List.mem_flatMap]
  exact ⟨fun h c hc b hb => h b ⟨c, hc, hb⟩, fun h b ⟨c, hc, hb⟩ => h c hc b hb⟩

/-- **A text has as many characters as first bytes.** -/
theorem countP_leads (s : String) : (bytes s).countP leads = s.length := by
  have hone : s.toList.map (List.countP leads ∘ String.utf8EncodeChar) =
      List.replicate s.toList.length 1 :=
    List.eq_replicate_iff.2 ⟨List.length_map _, List.forall_mem_map.2 fun c _ =>
      countP_leads_encode c⟩
  rw [bytes_eq_flatMap, List.countP_flatMap, hone, List.sum_replicate_nat, Nat.mul_one,
    String.length_toList]

/-- The bytes of a text of ASCII are the numbers of its characters. -/
theorem bytes_of_ascii (h : ∀ c ∈ s.toList, c.toNat < 128) :
    bytes s = s.toList.map fun c => UInt8.ofNat c.toNat := by
  rw [bytes_eq_flatMap, List.map_eq_flatMap]
  exact List.flatMap_congr fun c hc => encode_of_ascii (h c hc)

theorem length_bytes_of_ascii (h : ∀ c ∈ s.toList, c.toNat < 128) :
    (bytes s).length = s.length := by
  rw [bytes_of_ascii h, List.length_map, String.length_toList]

/-- **Bytes of ASCII are the bytes of a text.** -/
theorem exists_bytes_eq {bs : List UInt8} (h : ∀ b ∈ bs, b.toNat < 128) :
    ∃ s : String, bytes s = bs := by
  have hchar : ∀ b : UInt8, (Char.ofUInt8 b).toNat = b.toNat := fun _ => rfl
  refine ⟨String.ofList (bs.map Char.ofUInt8), ?_⟩
  rw [bytes_of_ascii, String.toList_ofList, List.map_map]
  · refine (List.map_congr_left fun b _ => ?_).trans (List.map_id bs)
    rw [Function.comp_apply, hchar, UInt8.ofNat_toNat, id]
  · rw [String.toList_ofList, List.forall_mem_map]
    exact h

end Rollbook.Text
