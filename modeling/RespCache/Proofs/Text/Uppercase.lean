import RespCache.Proofs.Text.Utf8
import RespCache.Text.Uppercase

/-!
Which characters become letters from A to Z in upper case. Below 128 these are the letters
themselves, in either case. Above there are ten (`wideLetters`), and no others
(`upperChar_of_capitals`): the tables are gone through row by row.
-/

namespace RespCache.Text

def Capital (c : Char) : Prop := 0x41 ≤ c.toNat ∧ c.toNat ≤ 0x5A

instance (c : Char) : Decidable (Capital c) := inferInstanceAs (Decidable (_ ∧ _))

def Capitals (cs : List Char) : Prop := ∀ c ∈ cs, Capital c

/-- The characters are gone through, not all that there are. -/
instance (cs : List Char) : Decidable (Capitals cs) := List.decidableBAll Capital cs

/-- The characters above 127 whose upper case consists of letters from A to Z: the sharp s, the
dotless i, the long s, and the ligatures of f, i, l, s and t. -/
def wideLetters : List (Char × List Char) := [
    ('\u00DF', ['S', 'S']), ('\u0131', ['I']), ('\u017F', ['S']), ('\uFB00', ['F', 'F']),
    ('\uFB01', ['F', 'I']), ('\uFB02', ['F', 'L']), ('\uFB03', ['F', 'F', 'I']),
    ('\uFB04', ['F', 'F', 'L']), ('\uFB05', ['S', 'T']), ('\uFB06', ['S', 'T'])]

theorem toUpper_ofNat_of_capital :
    ∀ n < 128, Capital (Char.ofNat n).toUpper →
      n = (Char.ofNat n).toUpper.toNat ∨ n = (Char.ofNat n).toUpper.toNat + 0x20 := by
  decide

theorem toUpper_ofNat :
    ∀ n < 0x5B, 0x41 ≤ n →
      (Char.ofNat n).toUpper = Char.ofNat n ∧ (Char.ofNat (n + 0x20)).toUpper = Char.ofNat n := by
  decide

/-- Either case of a letter becomes the capital. -/
theorem upperChar_letter {n : Nat} {c : Char} (hc : Capital c)
    (hn : n = c.toNat ∨ n = c.toNat + 0x20) : upperChar (Char.ofNat n) = [c] := by
  have hle := hc.2
  obtain ⟨hcapital, hsmall⟩ := toUpper_ofNat c.toNat (by omega) hc.1
  have hnat : (Char.ofNat n).toNat = n := Utf8.toNat_ofNat_of_valid (.inl (by omega))
  have hascii : (Char.ofNat n).toNat < 0x80 := by omega
  rw [upperChar, if_pos hascii]
  rcases hn with rfl | rfl
  · rw [hcapital, Char.ofNat_toNat]
  · rw [hsmall, Char.ofNat_toNat]

theorem upperChar_wide : ∀ e ∈ wideLetters, upperChar e.1 = e.2 := by
  decide +kernel

theorem caseExpansions_capital :
    ∀ e ∈ caseExpansions, Capitals (e.2.map Char.ofNat) →
      (Char.ofNat e.1, e.2.map Char.ofNat) ∈ wideLetters := by
  decide

/-- The capitals of a run lie above Z, or the run is one letter whose capital is I or S. -/
theorem caseRuns_capital :
    ∀ r ∈ caseRuns, 0x5A < r.capital ∨
      (r.first = r.last ∧ (Char.ofNat r.first, [Char.ofNat r.capital]) ∈ wideLetters) := by
  decide +kernel

theorem capital_toNat_ofNat {n : Nat} (h : Capital (Char.ofNat n)) : (Char.ofNat n).toNat = n := by
  by_cases hvalid : n < 0xD800 ∨ 0xDFFF < n ∧ n < 0x110000
  · exact Utf8.toNat_ofNat_of_valid hvalid
  · rw [Char.ofNat, dif_neg hvalid] at h
    exact absurd h (by decide)

/-- A character that becomes letters from A to Z is one of them, in either case, or is wide. -/
theorem upperChar_of_capitals {c : Char} (h : Capitals (upperChar c)) :
    (∃ d, Capital d ∧ upperChar c = [d] ∧ (c.toNat = d.toNat ∨ c.toNat = d.toNat + 0x20)) ∨
      (c, upperChar c) ∈ wideLetters := by
  by_cases hascii : c.toNat < 0x80
  · have hupper : upperChar c = [c.toUpper] := if_pos hascii
    have hcapital : Capital c.toUpper := h _ (by rw [hupper]; exact List.mem_singleton_self _)
    have hcase := toUpper_ofNat_of_capital c.toNat hascii
    rw [Char.ofNat_toNat] at hcase
    exact .inl ⟨c.toUpper, hcapital, hupper, hcase hcapital⟩
  · right
    unfold upperChar at h ⊢
    rw [if_neg hascii] at h ⊢
    split at h
    case h_1 e he =>
      have hfirst : e.1 = c.toNat := by simpa using List.find?_some he
      have hwide := caseExpansions_capital e (List.mem_of_find?_eq_some he) h
      rwa [hfirst, Char.ofNat_toNat] at hwide
    case h_2 =>
      split at h
      case h_1 r hr =>
        have hcovers : r.first ≤ c.toNat ∧ c.toNat ≤ r.last := by
          have hr := List.find?_some hr
          simp only [CaseRun.covers, Bool.and_eq_true, decide_eq_true_eq] at hr
          exact hr.1
        have hcapital := h _ (List.mem_singleton_self _)
        have hle := hcapital.2
        rw [capital_toNat_ofNat hcapital] at hle
        rcases caseRuns_capital r (List.mem_of_find?_eq_some hr) with habove | ⟨hone, hwide⟩
        · omega
        · have hfirst : c.toNat = r.first := by omega
          rw [← hfirst, Char.ofNat_toNat] at hwide
          rwa [hfirst, Nat.sub_self, Nat.add_zero]
      case h_2 =>
        have hle := (h c (List.mem_singleton_self _)).2
        omega

end RespCache.Text
