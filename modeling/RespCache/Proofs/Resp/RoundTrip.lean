import Mathlib.Tactic.TFAE
import RespCache.Proofs.Resp.Grammar
import RespCache.Proofs.Resp.WellFormed

/-!
Values and the frames that denote them. A well-formed value is denoted by the bytes it is written as
(`frame_encode`), and a frame denotes nothing else than well-formed values (`Frame.wellFormedAt`),
so the well-formed values are those that can be read and those that can be written and read back.
-/

namespace RespCache.Resp

open Value

theorem frames_encodeAll {depth : Nat} {items : List Value}
    (h : ∀ v ∈ items, Frame depth v.encode v) : Frames depth (encodeAll items) items := by
  induction items with
  | nil => exact .nil
  | cons v items ih =>
      rw [List.forall_mem_cons] at h
      exact .cons h.1 (ih h.2)

theorem frame_encode {v : Value} {depth : Nat} (hv : v.WellFormedAt depth) :
    Frame depth v.encode v := by
  induction v using Value.inductionOn generalizing depth with
  | simple text =>
      have hself := (wellFormedAt_iff_allowed (by simp)).mp hv
      exact .simple (Utf8.unbroken_encode_iff.mpr hself)
  | error text =>
      have hself := (wellFormedAt_iff_allowed (by simp)).mp hv
      exact .error (Utf8.unbroken_encode_iff.mpr hself)
  | integer n => exact .integer (Decimal.numeral_signed n.toInt)
  | bulk data =>
      have hself := (wellFormedAt_iff_allowed (by simp)).mp hv
      exact .bulk (Decimal.numeral_signed data.length) hself
  | nullBulk => exact .nullBulk (Decimal.numeral_signed (-1))
  | array items ih =>
      obtain ⟨⟨hdepth, hlength⟩, hitems⟩ := wellFormedAt_array_iff.mp hv
      refine .array (by omega) (Decimal.numeral_signed items.length) hlength ?_
      exact frames_encodeAll fun v hv => ih v hv (hitems v hv)
  | nullArray =>
      have hself : depth ≤ 31 := (wellFormedAt_iff_allowed (by simp)).mp hv
      exact .nullArray (by omega) (Decimal.numeral_signed (-1))

mutual

theorem Frame.wellFormedAt {depth : Nat} {w : Bytes} {v : Value} :
    Frame depth w v → v.WellFormedAt depth
  | .simple htext => (wellFormedAt_iff_allowed (by simp)).mpr (Utf8.unbroken_encode_iff.mp htext)
  | .error htext => (wellFormedAt_iff_allowed (by simp)).mpr (Utf8.unbroken_encode_iff.mp htext)
  | .integer _ => (wellFormedAt_iff_allowed (by simp)).mpr trivial
  | .bulk _ hlimit => (wellFormedAt_iff_allowed (by simp)).mpr hlimit
  | .nullBulk _ => (wellFormedAt_iff_allowed (by simp)).mpr trivial
  | .array hdepth _ hlimit hitems =>
      wellFormedAt_array_iff.mpr ⟨⟨Nat.le_of_lt_succ hdepth, hlimit⟩, hitems.wellFormedAt⟩
  | .nullArray hdepth _ => (wellFormedAt_iff_allowed (by simp)).mpr (Nat.le_of_lt_succ hdepth)

theorem Frames.wellFormedAt {depth : Nat} {w : Bytes} {items : List Value} :
    Frames depth w items → ∀ v ∈ items, v.WellFormedAt depth
  | .nil => List.forall_mem_nil _
  | .cons hv hvs => List.forall_mem_cons.mpr ⟨hv.wellFormedAt, hvs.wellFormedAt⟩

end

theorem reads_encode {v : Value} {depth room : Nat} (hroom : depth + room = maxDepth)
    (hv : v.WellFormedAt depth) : Reads (readValue room) v.encode v :=
  (frame_encode hv).reads hroom

theorem wellFormedAt_of_readValue {v : Value} {depth room : Nat} {bs rest : Bytes}
    (hroom : depth + room = maxDepth) (h : readValue room bs = .complete v rest) :
    v.WellFormedAt depth := by
  obtain ⟨w, -, hw⟩ := frame_of_readValue hroom h
  exact hw.wellFormedAt

/-- The well-formed values are those that some buffer holds, and those that come back from the bytes
that stand for them, whatever follows these. -/
theorem wellFormed_tfae (v : Value) :
    List.TFAE [v.WellFormed, ∃ buffer rest, parse buffer = .complete v rest,
      ∀ more, parse (v.encode ++ more) = .complete v more] := by
  tfae_have 1 → 3 := fun hv => reads_encode (Nat.zero_add _) (wellFormedAt_zero_iff.mpr hv)
  tfae_have 3 → 2 := fun hreads => ⟨v.encode ++ [], [], hreads []⟩
  tfae_have 2 → 1 := by
    rintro ⟨buffer, rest, hread⟩
    exact wellFormedAt_zero_iff.mp (wellFormedAt_of_readValue (Nat.zero_add _) hread)
  tfae_finish

end RespCache.Resp
