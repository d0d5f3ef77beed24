import Mathlib.Data.List.Basic
import JobBoard.Services.Invoicing

/-!
# Invoice numbers as strings

`formatInvoiceNumber` gives different strings to different years and to
different sequence numbers, however many digits these have
(`formatInvoiceNumber_inj`), and the storage key of a PDF determines the number
of its invoice (`pdfStorageKey_inj`).
-/

set_option autoImplicit false

namespace JobBoard

/-- What follows the last `c` determines what precedes it. -/
theorem append_cons_inj_of_last {α : Type} {c : α} {a a' b b' : List α} (hb : c ∉ b) (hb' : c ∉ b')
    (h : a ++ c :: b = a' ++ c :: b') : a = a' ∧ b = b' := by
  induction a generalizing a' with
  | nil =>
    cases a' with
    | nil =>
      rw [List.nil_append, List.nil_append, List.cons.injEq] at h
      exact ⟨rfl, h.2⟩
    | cons x a' =>
      rw [List.nil_append, List.cons_append, List.cons.injEq] at h
      exact absurd (h.2 ▸ List.mem_append_right _ List.mem_cons_self) hb
  | cons x a ih =>
    cases a' with
    | nil =>
      rw [List.nil_append, List.cons_append, List.cons.injEq] at h
      exact absurd (h.2 ▸ List.mem_append_right _ List.mem_cons_self) hb'
    | cons x' a' =>
      rw [List.cons_append, List.cons_append, List.cons.injEq] at h
      obtain ⟨rfl, rfl⟩ := ih h.2
      exact ⟨by rw [h.1], rfl⟩

/-! ## Digits -/

theorem toList_toString (n : Nat) : (toString n).toList = Nat.toDigits 10 n := by
  rw [Nat.toString_eq_ofList_toDigits, String.toList_ofList]

theorem isDigit_of_mem_toString {n : Nat} {c : Char} (h : c ∈ (toString n).toList) :
    c.isDigit = true := by
  rw [toList_toString] at h
  exact Nat.isDigit_of_mem_toDigits (by decide) (by decide) h

theorem toList_padStart (s : String) (length : Nat) (c : Char) :
    (padStart s length c).toList = List.replicate (length - s.length) c ++ s.toList := by
  rw [padStart, String.toList_append, String.toList_ofList]

theorem isDigit_of_mem_padStart {n length : Nat} {c : Char}
    (h : c ∈ (padStart (toString n) length '0').toList) : c.isDigit = true := by
  rw [toList_padStart, List.mem_append] at h
  rcases h with h | h
  · rw [List.eq_of_mem_replicate h]
    decide
  · exact isDigit_of_mem_toString h

/-- The zeros in front do not change the number read back. -/
theorem ofDigitChars_padStart (n length : Nat) :
    Nat.ofDigitChars 10 (padStart (toString n) length '0').toList 0 = n := by
  rw [toList_padStart, Nat.ofDigitChars_append, Nat.ofDigitChars_replicate_zero, Nat.mul_zero,
    toList_toString, Nat.ofDigitChars_ten_toDigits]

theorem padStart_toString_inj {n m length : Nat}
    (h : (padStart (toString n) length '0').toList = (padStart (toString m) length '0').toList) :
    n = m := by
  rw [← ofDigitChars_padStart n length, h, ofDigitChars_padStart]

theorem toString_nat_inj {n m : Nat} (h : (toString n).toList = (toString m).toList) : n = m := by
  rw [toList_toString, toList_toString] at h
  rw [← Nat.ofDigitChars_ten_toDigits (n := n), h, Nat.ofDigitChars_ten_toDigits]

/-- A year is written with a sign when it is negative. -/
theorem toList_toString_int (y : Int) : (toString y).toList =
    if 0 ≤ y then (toString y.toNat).toList else '-' :: (toString (-y).toNat).toList := by
  rw [Int.toString_eq_repr, Int.repr_eq_if]
  split
  · rfl
  · rw [String.toList_append]
    rfl

theorem dash_not_digit {n : Nat} : '-' ∉ (toString n).toList := fun h =>
  absurd (isDigit_of_mem_toString h) (by decide)

theorem toString_int_inj {y z : Int} (h : (toString y).toList = (toString z).toList) : y = z := by
  rw [toList_toString_int, toList_toString_int] at h
  split at h
  · split at h
    · have := toString_nat_inj h
      omega
    · exact absurd (h ▸ List.mem_cons_self) dash_not_digit
  · split at h
    · exact absurd (h.symm ▸ List.mem_cons_self) dash_not_digit
    · have := toString_nat_inj (List.cons.inj h).2
      omega

/-! ## Numbers and keys -/

theorem dash_not_mem_padStart (n length : Nat) :
    '-' ∉ (padStart (toString n) length '0').toList := fun h =>
  absurd (isDigit_of_mem_padStart h) (by decide)

theorem toList_formatInvoiceNumber (y : Int) (n : Nat) : (formatInvoiceNumber y n).toList =
    (toString y).toList ++ '-' :: (padStart (toString n) INVOICE_NUMBER_PADDING '0').toList := by
  rw [formatInvoiceNumber, String.toList_append, String.toList_append, List.append_assoc]
  rfl

/-- Also beyond the four digits that the padding provides for. -/
theorem formatInvoiceNumber_inj {y y' : Int} {n n' : Nat}
    (h : formatInvoiceNumber y n = formatInvoiceNumber y' n') : y = y' ∧ n = n' := by
  have h := congrArg String.toList h
  rw [toList_formatInvoiceNumber, toList_formatInvoiceNumber] at h
  obtain ⟨hy, hn⟩ := append_cons_inj_of_last (dash_not_mem_padStart n _)
    (dash_not_mem_padStart n' _) h
  exact ⟨toString_int_inj hy, padStart_toString_inj hn⟩

theorem slash_not_mem_formatInvoiceNumber (y : Int) (n : Nat) :
    '/' ∉ (formatInvoiceNumber y n).toList := by
  have hdigits : ∀ m, '/' ∉ (toString m : String).toList := fun m h =>
    absurd (isDigit_of_mem_toString (n := m) h) (by decide)
  rw [toList_formatInvoiceNumber, List.mem_append, List.mem_cons]
  rintro (h | h | h)
  · rw [toList_toString_int] at h
    split at h
    · exact hdigits _ h
    · rcases List.mem_cons.1 h with h | h
      · exact absurd h (by decide)
      · exact hdigits _ h
  · exact absurd h (by decide)
  · exact absurd (isDigit_of_mem_padStart h) (by decide)

theorem pdfStorageKey_inj {c c' : Id} {y y' : Int} {n n' : Nat}
    (h : pdfStorageKey c (formatInvoiceNumber y n) = pdfStorageKey c' (formatInvoiceNumber y' n')) :
    c = c' ∧ y = y' ∧ n = n' := by
  have key : ∀ c y n, (pdfStorageKey c (formatInvoiceNumber y n)).toList = "invoices/".toList ++
      ((toString c).toList ++ '/' :: ((formatInvoiceNumber y n).toList ++ ".pdf".toList)) := by
    intro c y n
    simp only [pdfStorageKey, String.toList_append, List.append_assoc]
    rfl
  have hslash : ∀ y n, '/' ∉ (formatInvoiceNumber y n).toList ++ ".pdf".toList := by
    intro y n hmem
    rcases List.mem_append.1 hmem with hmem | hmem
    · exact slash_not_mem_formatInvoiceNumber y n hmem
    · exact absurd hmem (by decide)
  have h := congrArg String.toList h
  rw [key, key] at h
  obtain ⟨hc, hn⟩ := append_cons_inj_of_last (hslash y n) (hslash y' n') (List.append_cancel_left h)
  have hn := formatInvoiceNumber_inj (String.toList_inj.1 (List.append_cancel_right hn))
  exact ⟨toString_nat_inj hc, hn⟩

end JobBoard
