import Mathlib.Data.List.Induction
import Mathlib.Data.Nat.Digits.Defs
import RespCache.Proofs.Bytes
import RespCache.Text.Decimal

/-!
Numerals: an optional sign and one or more digits, of which the first may be zeros. What is read as
an integer is a numeral of that integer, and every numeral is read (`signed?_eq_some_iff`); a 64-bit
word is read where the integer is that of a word (`int64?_eq_some_iff`). What is written for an
integer is a numeral of it (`numeral_signed`), and every other one is longer
(`Numeral.sameOrShorter`).
-/

namespace RespCache.Decimal

def Digits (bs : Bytes) : Prop := bs ≠ [] ∧ ∀ b ∈ bs, 48 ≤ b ∧ b ≤ 57

/-- The number that digits stand for; the first one weighs most. -/
def worth (bs : Bytes) : Nat := Nat.ofDigits 10 (bs.reverse.map fun b => b.toNat - 48)

/-- The byte string spells the integer: digits after an optional sign. -/
inductive Numeral : Bytes → Int → Prop where
  | bare {ds : Bytes} : Digits ds → Numeral ds (worth ds)
  | plus {ds : Bytes} : Digits ds → Numeral (43 :: ds) (worth ds)
  | minus {ds : Bytes} : Digits ds → Numeral (45 :: ds) (-worth ds)

theorem worth_cons (b : UInt8) (bs : Bytes) :
    worth (b :: bs) = (b.toNat - 48) * 10 ^ bs.length + worth bs := by
  rw [worth, List.reverse_cons, List.map_append, Nat.ofDigits_append, List.map_singleton,
    Nat.ofDigits_singleton, List.length_map, List.length_reverse, worth]
  ring

theorem digitValue?_eq_some_iff {b : UInt8} {d : Nat} :
    digitValue? b = some d ↔ (48 ≤ b ∧ b ≤ 57) ∧ d = b.toNat - 48 := by
  rw [digitValue?]
  split
  case isTrue h => simp [h, eq_comm]
  case isFalse h => simp [h]

theorem valueFrom?_eq_some_iff {n m : Nat} {bs : Bytes} :
    valueFrom? n bs = some m ↔
      (∀ b ∈ bs, 48 ≤ b ∧ b ≤ 57) ∧ m = n * 10 ^ bs.length + worth bs := by
  induction bs generalizing n with
  | nil => simp [valueFrom?, worth, eq_comm]
  | cons b bs ih =>
      have hweight : ∀ d, (10 * n + d) * 10 ^ bs.length + worth bs =
          n * 10 ^ (bs.length + 1) + (d * 10 ^ bs.length + worth bs) := by
        intro d
        ring
      rw [valueFrom?, List.forall_mem_cons, worth_cons, List.length_cons, ← hweight]
      cases hd : digitValue? b with
      | none =>
          have hb : ¬(48 ≤ b ∧ b ≤ 57) := by
            intro hb
            rw [digitValue?_eq_some_iff.mpr ⟨hb, rfl⟩] at hd
            cases hd
          simp [hb]
      | some d =>
          obtain ⟨hb, rfl⟩ := digitValue?_eq_some_iff.mp hd
          simp only [ih, hb, true_and]

theorem value?_eq_some_iff {bs : Bytes} {n : Nat} :
    value? bs = some n ↔ Digits bs ∧ n = worth bs := by
  cases bs with
  | nil => simp [value?, Digits]
  | cons b bs =>
      rw [value?.eq_2 _ (List.cons_ne_nil b bs), valueFrom?_eq_some_iff, Digits]
      simp

theorem signed?_eq_some_iff {bs : Bytes} {i : Int} : signed? bs = some i ↔ Numeral bs i := by
  constructor
  · intro h
    unfold signed? at h
    split at h
    case h_1 ds =>
      obtain ⟨n, hn, rfl⟩ := Option.map_eq_some_iff.mp h
      obtain ⟨hds, rfl⟩ := value?_eq_some_iff.mp hn
      exact .plus hds
    case h_2 ds =>
      obtain ⟨n, hn, rfl⟩ := Option.map_eq_some_iff.mp h
      obtain ⟨hds, rfl⟩ := value?_eq_some_iff.mp hn
      exact .minus hds
    case h_3 =>
      obtain ⟨n, hn, rfl⟩ := Option.map_eq_some_iff.mp h
      obtain ⟨hds, rfl⟩ := value?_eq_some_iff.mp hn
      exact .bare hds
  · intro h
    cases h with
    | plus hds => rw [signed?, value?_eq_some_iff.mpr ⟨hds, rfl⟩]; rfl
    | minus hds => rw [signed?, value?_eq_some_iff.mpr ⟨hds, rfl⟩]; rfl
    | bare hds =>
        have hsign : ∀ b cs, bs = b :: cs → 48 ≤ b := by
          rintro b cs rfl
          exact (hds.2 b List.mem_cons_self).1
        rw [signed?.eq_3 _ (fun cs h => absurd (hsign 43 cs h) (by decide))
          (fun cs h => absurd (hsign 45 cs h) (by decide)), value?_eq_some_iff.mpr ⟨hds, rfl⟩]
        rfl

theorem int64?_eq_some_iff {bs : Bytes} {n : Int64} :
    int64? bs = some n ↔ Numeral bs n.toInt := by
  rw [← signed?_eq_some_iff, int64?]
  cases signed? bs with
  | none => simp
  | some i =>
      simp only [Option.some.injEq]
      constructor
      · intro h
        split at h
        case isTrue hrange =>
          cases h
          have hmax : Int64.maxValue.toInt = 2 ^ 63 - 1 := by decide
          exact (Int64.toInt_ofInt_of_le hrange.1 (by omega)).symm
        case isFalse => cases h
      · rintro rfl
        rw [if_pos ⟨n.minValue_le_toInt, n.toInt_le⟩, Int64.ofInt_toInt]

theorem Numeral.unbroken {bs : Bytes} {i : Int} (h : Numeral bs i) : bs.Unbroken := by
  have hdigits : ∀ {ds : Bytes}, Digits ds → (13 : UInt8) ∉ ds := by
    intro ds hds hmem
    exact absurd (hds.2 13 hmem).1 (by decide)
  have hcr : (13 : UInt8) ∉ bs := by
    cases h with
    | bare hds => exact hdigits hds
    | plus hds => simpa using hdigits hds
    | minus hds => simpa using hdigits hds
  exact fun h => hcr (h.subset (by simp [Bytes.crlf]))

/-! ### Numbers as they are written -/

theorem toNat_digit {d : Nat} (hd : d < 10) : (digit d).toNat = 48 + d := by
  rw [digit, UInt8.toNat_ofNat', Nat.mod_eq_of_lt (by omega)]

theorem digit_range {d : Nat} (hd : d < 10) : 48 ≤ digit d ∧ digit d ≤ 57 := by
  simp only [UInt8.le_iff_toNat_le, toNat_digit hd, UInt8.reduceToNat]
  omega

theorem digits_digits (n : Nat) : Digits (digits n) := by
  fun_induction digits n with
  | case1 n hn => exact ⟨by simp, List.forall_mem_singleton.mpr (digit_range hn)⟩
  | case2 n hn ih =>
      have hlast := digit_range (Nat.mod_lt n (by decide))
      refine ⟨by simp, List.forall_mem_append.mpr ⟨ih.2, ?_⟩⟩
      exact List.forall_mem_singleton.mpr hlast

theorem worth_concat (bs : Bytes) (b : UInt8) :
    worth (bs ++ [b]) = 10 * worth bs + (b.toNat - 48) := by
  rw [worth, List.reverse_append, List.reverse_singleton, List.singleton_append, List.map_cons,
    Nat.ofDigits_cons, worth]
  exact Nat.add_comm _ _

theorem worth_digits (n : Nat) : worth (digits n) = n := by
  fun_induction digits n with
  | case1 n hn =>
      rw [← List.nil_append [digit n], worth_concat, toNat_digit hn, Nat.add_sub_cancel_left]
      exact Nat.zero_add n
  | case2 n hn ih =>
      rw [worth_concat, ih, toNat_digit (Nat.mod_lt n (by decide)), Nat.add_sub_cancel_left,
        Nat.div_add_mod]

theorem numeral_signed (i : Int) : Numeral (signed i) i := by
  cases i with
  | ofNat n =>
      have h := Numeral.bare (digits_digits n)
      rwa [worth_digits] at h
  | negSucc n =>
      have h := Numeral.minus (digits_digits (n + 1))
      rwa [worth_digits] at h

/-! ### The shortest numeral -/

theorem digits_of_lt {d : Nat} (hd : d < 10) : digits d = [digit d] := by
  rw [digits, if_pos hd]

theorem digits_concat {n d : Nat} (hn : 0 < n) (hd : d < 10) :
    digits (10 * n + d) = digits n ++ [digit d] := by
  have hquotient : (10 * n + d) / 10 = n := by omega
  have hremainder : (10 * n + d) % 10 = d := by omega
  rw [digits, if_neg (by omega), hquotient, hremainder]

theorem digit_value {b : UInt8} (hb : 48 ≤ b ∧ b ≤ 57) :
    b.toNat - 48 < 10 ∧ digit (b.toNat - 48) = b := by
  simp only [UInt8.le_iff_toNat_le, UInt8.reduceToNat] at hb
  refine ⟨by omega, UInt8.toNat_inj.mp ?_⟩
  rw [toNat_digit (by omega)]
  omega

/-- Only zeros in front make digits longer than they have to be. -/
theorem Digits.sameOrShorter {ds : Bytes} (hds : Digits ds) :
    (digits (worth ds)).SameOrShorter ds := by
  induction ds using List.reverseRecOn with
  | nil => exact absurd rfl hds.1
  | append_singleton es b ih =>
      obtain ⟨hes, hb⟩ := List.forall_mem_append.mp hds.2
      obtain ⟨hlt, hdigit⟩ := digit_value (hb b List.mem_cons_self)
      rw [worth_concat]
      rcases Nat.eq_zero_or_pos (worth es) with hzero | hpos
      · rw [hzero, Nat.mul_zero, Nat.zero_add, digits_of_lt hlt, hdigit]
        cases es with
        | nil => exact .refl _
        | cons e es => exact Or.inr (by simp)
      · have hne : es ≠ [] := by
          rintro rfl
          exact absurd hpos (Nat.lt_irrefl 0)
        rw [digits_concat hpos hlt, hdigit]
        exact (ih ⟨hne, hes⟩).append (.refl [b])

/-- An integer is written with the fewest bytes, and no other numeral of it has as few. -/
theorem Numeral.sameOrShorter {w : Bytes} {i : Int} (h : Numeral w i) :
    (signed i).SameOrShorter w := by
  cases h with
  | bare hds => exact hds.sameOrShorter
  | plus hds => exact Or.inr (Nat.lt_succ_of_le hds.sameOrShorter.length_le)
  | @minus ds hds =>
      have hshorter := hds.sameOrShorter
      cases hworth : worth ds with
      | zero =>
          have hzero : signed (-(0 : Nat)) = [digit 0] := digits_of_lt (by decide)
          have hpos : 0 < ds.length := List.length_pos_iff.mpr hds.1
          rw [hzero]
          exact Or.inr (Nat.succ_lt_succ hpos)
      | succ n =>
          rw [hworth] at hshorter
          exact hshorter.cons 45

end RespCache.Decimal
