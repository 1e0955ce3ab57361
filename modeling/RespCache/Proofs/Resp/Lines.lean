import RespCache.Proofs.Resp.Finality
import RespCache.Proofs.Text.Decimal
import RespCache.Proofs.Text.Utf8

/-!
The lines of the format, exactly: which bytes are read as a text, an integer or a length, and to
which one. Each reader takes a line off the front, so the bytes in front of the rest are a body
without CR LF and the CR LF behind it.
-/

namespace RespCache.Resp

open Decimal (Numeral)

theorem readText_eq_complete_iff {bs : Bytes} {text : String} {rest : Bytes} :
    readText bs = .complete text rest ↔
      ¬['\r', '\n'] <:+: text.toList ∧ bs = Utf8.encode text ++ (Bytes.crlf ++ rest) := by
  rw [readText, Reading.andThen_eq_complete_iff, ← Utf8.unbroken_encode_iff]
  constructor
  · rintro ⟨line, mid, hline, htext⟩
    obtain ⟨hunbroken, rfl⟩ := readLine_eq_complete_iff.mp hline
    split at htext
    case h_1 text' hdecode =>
      cases htext
      rw [Utf8.decode?_eq_some_iff.mp hdecode] at hunbroken ⊢
      exact ⟨hunbroken, rfl⟩
    case h_2 => cases htext
  · rintro ⟨hunbroken, rfl⟩
    refine ⟨_, rest, readLine_eq_complete_iff.mpr ⟨hunbroken, rfl⟩, ?_⟩
    rw [Utf8.decode?_eq_some_iff.mpr rfl]

theorem readInteger_eq_complete_iff {bs : Bytes} {n : Int64} {rest : Bytes} :
    readInteger bs = .complete n rest ↔
      ∃ w, Numeral w n.toInt ∧ bs = w ++ (Bytes.crlf ++ rest) := by
  rw [readInteger, Reading.andThen_eq_complete_iff]
  constructor
  · rintro ⟨line, mid, hline, hn⟩
    obtain ⟨-, rfl⟩ := readLine_eq_complete_iff.mp hline
    split at hn
    case h_1 n' hint =>
      cases hn
      exact ⟨line, Decimal.int64?_eq_some_iff.mp hint, rfl⟩
    case h_2 => cases hn
  · rintro ⟨w, hw, rfl⟩
    refine ⟨w, rest, readLine_eq_complete_iff.mpr ⟨hw.unbroken, rfl⟩, ?_⟩
    rw [Decimal.int64?_eq_some_iff.mpr hw]

/-- The length -1 announces a null. -/
theorem readLength_eq_null_iff {kind : Sized} {bs rest : Bytes} :
    readLength kind bs = .complete none rest ↔
      ∃ w, Numeral w (-1) ∧ bs = w ++ (Bytes.crlf ++ rest) := by
  have hnull : (-1 : Int64).toInt = -1 := rfl
  rw [readLength, Reading.andThen_eq_complete_iff]
  constructor
  · rintro ⟨n, mid, hn, h⟩
    split_ifs at h with hminus hneg hlarge
    · cases h
      rw [hminus, readInteger_eq_complete_iff, hnull] at hn
      exact hn
    · cases h
  · rintro ⟨w, hw, rfl⟩
    exact ⟨-1, rest, readInteger_eq_complete_iff.mpr ⟨w, hw, rfl⟩, if_pos rfl⟩

theorem readLength_eq_length_iff {kind : Sized} {bs : Bytes} {k : Nat} {rest : Bytes} :
    readLength kind bs = .complete (some k) rest ↔
      ∃ w, Numeral w k ∧ k ≤ kind.limit ∧ bs = w ++ (Bytes.crlf ++ rest) := by
  have hnull : (-1 : Int64).toInt = -1 := rfl
  rw [readLength, Reading.andThen_eq_complete_iff]
  constructor
  · rintro ⟨n, mid, hn, h⟩
    split_ifs at h with hminus hneg hlarge
    · cases h
    · cases h
      obtain ⟨w, hw, rfl⟩ := readInteger_eq_complete_iff.mp hn
      have hpos : 0 ≤ n.toInt := by
        rw [← Int64.toInt_inj, hnull] at hminus
        rw [Int64.lt_iff_toInt_lt, hnull] at hneg
        omega
      exact ⟨w, by rwa [Int.toNat_of_nonneg hpos], Nat.le_of_not_lt hlarge, rfl⟩
  · rintro ⟨w, hw, hk, rfl⟩
    -- a length within the limit is far from the end of the words, so it is its own word
    have hlimit : kind.limit ≤ 512 * 1024 * 1024 := by
      cases kind <;> decide
    have hword : (Int64.ofInt k).toInt = k := Int64.toInt_ofInt_of_le (by omega) (by omega)
    have hminus : Int64.ofInt k ≠ -1 := by
      rw [ne_eq, ← Int64.toInt_inj, hword, hnull]
      omega
    have hneg : ¬Int64.ofInt k < -1 := by
      rw [Int64.lt_iff_toInt_lt, hword, hnull]
      omega
    refine ⟨_, rest, readInteger_eq_complete_iff.mpr ⟨w, by rwa [hword], rfl⟩, ?_⟩
    rw [if_neg hminus, if_neg hneg, hword, Int.toNat_natCast, if_neg (by omega)]

end RespCache.Resp
