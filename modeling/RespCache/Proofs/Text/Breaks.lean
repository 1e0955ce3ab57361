import Mathlib.Data.List.Infix
import RespCache.Text.Quoted

/-!
Texts and line breaks. A CR LF that lies in two texts put together lies in one of them, unless the
seam makes it (`break_append_iff`); numbers and escaped bytes bring no CR along.
-/

namespace RespCache.Text

theorem break_append_iff {s t : List Char} (hseam : ¬['\r'] <:+ s ∨ ¬['\n'] <+: t) :
    ['\r', '\n'] <:+: s ++ t ↔ ['\r', '\n'] <:+: s ∨ ['\r', '\n'] <:+: t := by
  rw [List.infix_append_iff_ne_nil]
  refine or_congr_right (or_iff_left ?_)
  rintro ⟨u, v, hu, hv, huv, hs, ht⟩
  obtain ⟨c, u, rfl⟩ := List.exists_cons_of_ne_nil hu
  cases u with
  | nil =>
      obtain ⟨rfl, rfl⟩ := List.cons.inj huv
      exact hseam.elim (fun h => h hs) (fun h => h ht)
  | cons d u =>
      have hlength := congrArg List.length huv
      have hpos := List.length_pos_of_ne_nil hv
      simp only [List.length_cons, List.length_append, List.length_nil] at hlength
      omega

theorem not_break_of_cr_not_mem {s : List Char} (h : '\r' ∉ s) : ¬['\r', '\n'] <:+: s :=
  fun hbreak => h (hbreak.subset List.mem_cons_self)

theorem cr_not_mem_toDigits (n : Nat) : '\r' ∉ Nat.toDigits 10 n := by
  intro h
  exact absurd (Nat.isDigit_of_mem_toDigits (by decide) (by decide) h) (by decide)

theorem cr_not_mem_repr (i : Int) : '\r' ∉ i.repr.toList := by
  rw [Int.repr_eq_if]
  split
  · simp [cr_not_mem_toDigits]
  · simp [cr_not_mem_toDigits]

theorem cr_not_mem_escapedByte (b : UInt8) : '\r' ∉ (escapedByte b).toList := by
  have hbytes : ∀ n : Fin 256, '\r' ∉ (escapedByte (UInt8.ofNat n)).toList := by
    decide +kernel
  simpa using hbytes ⟨b.toNat, b.toNat_lt⟩

end RespCache.Text
