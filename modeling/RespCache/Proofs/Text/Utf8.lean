import RespCache.Proofs.Bytes
import RespCache.Text.Utf8

/-!
The bytes of a text and back. Exactly the bytes of a text are decoded, to that text
(`decode?_eq_some_iff`), and a text can stand in a line if CR LF is not in it as two characters
(`unbroken_encode_iff`): inside the bytes of a wider character neither byte occurs.
-/

namespace RespCache.Utf8

theorem decode?_eq_some_iff {bs : Bytes} {text : String} :
    decode? bs = some text ↔ bs = encode text := by
  rw [decode?, String.fromUTF8?]
  constructor
  · intro h
    split at h
    · cases h
      simp [encode, String.fromUTF8]
    · cases h
  · rintro rfl
    have htext : (encode text).toByteArray = text.toByteArray := by
      apply ByteArray.ext
      simp [encode]
    simp only [htext, text.isValidUTF8, dite_true]
    rfl

theorem toNat_ofNat_of_valid {n : Nat} (h : n < 0xD800 ∨ 0xDFFF < n ∧ n < 0x110000) :
    (Char.ofNat n).val.toNat = n := by
  rw [Char.ofNat, dif_pos h]
  rfl

theorem encode_eq_flatMap (text : String) :
    encode text = text.toList.flatMap String.utf8EncodeChar := by
  rw [encode, ← String.utf8Encode_toList, List.utf8Encode]
  simp

theorem length_encode_le (text : String) : (encode text).length ≤ 4 * text.length := by
  rw [encode_eq_flatMap, ← String.length_toList]
  induction text.toList with
  | nil => exact Nat.le_refl 0
  | cons c cs ih =>
      have hc : (String.utf8EncodeChar c).length ≤ 4 := by
        rw [String.length_utf8EncodeChar]
        exact c.utf8Size_le_four
      rw [List.flatMap_cons, List.length_append, List.length_cons]
      omega

/-- A character below 128 is one byte, and the bytes of all others are at least 128. -/
theorem utf8EncodeChar_cases (c : Char) :
    (c.toNat < 128 ∧ String.utf8EncodeChar c = [UInt8.ofNat c.toNat]) ∨
      (128 ≤ c.toNat ∧ ∀ b ∈ String.utf8EncodeChar c, 128 ≤ b.toNat) := by
  have hwide : ∀ n, 128 ≤ n % 256 → 128 ≤ (UInt8.ofNat n).toNat := by
    intro n hn
    rwa [UInt8.toNat_ofNat']
  rw [String.utf8EncodeChar]
  split
  case isTrue hone => exact .inl ⟨Nat.lt_succ_of_le hone, rfl⟩
  case isFalse hone =>
      right
      refine ⟨Nat.lt_of_not_le hone, ?_⟩
      intro b hb
      split at hb
      · simp only [List.mem_cons, List.not_mem_nil, or_false] at hb
        rcases hb with rfl | rfl <;> exact hwide _ (by omega)
      split at hb
      · simp only [List.mem_cons, List.not_mem_nil, or_false] at hb
        rcases hb with rfl | rfl | rfl <;> exact hwide _ (by omega)
      · simp only [List.mem_cons, List.not_mem_nil, or_false] at hb
        rcases hb with rfl | rfl | rfl | rfl <;> exact hwide _ (by omega)

/-- The bytes of some characters begin with that of a character below 128 only if this character is
the first of them. -/
theorem flatMap_utf8EncodeChar_eq_cons_iff {cs : List Char} {d : Char} (hd : d.toNat < 128) :
    (∃ rest, cs.flatMap String.utf8EncodeChar = UInt8.ofNat d.toNat :: rest) ↔
      ∃ rest, cs = d :: rest := by
  have hbyte : (UInt8.ofNat d.toNat).toNat = d.toNat := by
    rw [UInt8.toNat_ofNat', Nat.mod_eq_of_lt (by omega)]
  cases cs with
  | nil => simp
  | cons c cs =>
      rw [List.flatMap_cons]
      rcases utf8EncodeChar_cases c with ⟨hc, hone⟩ | ⟨hc, hall⟩
      · rw [hone]
        constructor
        · rintro ⟨rest, h⟩
          have hnat := congrArg UInt8.toNat (List.cons.inj h).1
          rw [hbyte, UInt8.toNat_ofNat', Nat.mod_eq_of_lt (by omega)] at hnat
          exact ⟨cs, by rw [Char.toNat_inj.mp hnat]⟩
        · rintro ⟨rest, h⟩
          cases h
          exact ⟨_, rfl⟩
      · obtain ⟨b, bs, hbs⟩ := List.exists_cons_of_ne_nil (String.utf8EncodeChar_ne_nil (c := c))
        have hb := hall b (by simp [hbs])
        constructor
        · rintro ⟨rest, h⟩
          rw [hbs] at h
          rw [(List.cons.inj h).1, hbyte] at hb
          omega
        · rintro ⟨rest, h⟩
          cases h
          omega

theorem unbroken_append_iff_of_wide {bs cs : Bytes} (hbs : ∀ b ∈ bs, 128 ≤ b.toNat) :
    (bs ++ cs).Unbroken ↔ cs.Unbroken := by
  induction bs with
  | nil => rfl
  | cons b bs ih =>
      have hb : b ≠ 13 := by
        rintro rfl
        simpa using hbs 13 (by simp)
      rw [List.cons_append, Bytes.unbroken_cons_iff, ih fun b hb => hbs b (by simp [hb])]
      exact and_iff_right fun h => hb h.1

theorem unbroken_encode_iff {text : String} :
    (encode text).Unbroken ↔ ¬['\r', '\n'] <:+: text.toList := by
  rw [encode_eq_flatMap]
  induction text.toList with
  | nil => simp [Bytes.unbroken_nil]
  | cons c cs ih =>
      have hprefix : ['\r', '\n'] <+: c :: cs ↔ c = '\r' ∧ ∃ rest, cs = '\n' :: rest := by
        cases cs with
        | nil => simp
        | cons d cs => simp [eq_comm]
      have hnext := @flatMap_utf8EncodeChar_eq_cons_iff cs '\n' (by decide)
      rw [List.flatMap_cons, List.infix_cons_iff, hprefix, not_or, ← ih]
      rcases utf8EncodeChar_cases c with ⟨hc, hone⟩ | ⟨hc, hall⟩
      · have hcr : UInt8.ofNat c.toNat = 13 ↔ c = '\r' := by
          constructor
          · intro h
            have hnat := congrArg UInt8.toNat h
            rw [UInt8.toNat_ofNat', Nat.mod_eq_of_lt (by omega)] at hnat
            exact Char.toNat_inj.mp hnat
          · rintro rfl
            rfl
        rw [hone, List.singleton_append, Bytes.unbroken_cons_iff, hcr, ← hnext]
        rfl
      · rw [unbroken_append_iff_of_wide hall]
        refine (and_iff_right ?_).symm
        rintro ⟨rfl, -⟩
        exact absurd hc (by decide)

end RespCache.Utf8
