import Mathlib.Data.List.TakeWhile

/-! Decimal numerals in text of bytes, and the prefix of a text that the C library's number
conversions read. -/

namespace UdpForwarder.Numeral

def isDigit (c : UInt8) : Bool := 0x30 ≤ c && c ≤ 0x39

/-- `isspace` in the C locale. -/
def isSpace (c : UInt8) : Bool := c = 0x20 || (0x09 ≤ c && c ≤ 0x0D)

/-- The number that digits denote, the most significant one first. -/
def value (digits : List UInt8) : Nat :=
  digits.foldl (fun number c => 10 * number + (c.toNat - 0x30)) 0

/-- A decimal numeral: digits, at least one, and nothing else. -/
def IsNumeral (text : List UInt8) : Prop := text ≠ [] ∧ ∀ c ∈ text, isDigit c = true

instance (text : List UInt8) : Decidable (IsNumeral text) := inferInstanceAs (Decidable (_ ∧ _))

/-- Whether there is a minus sign, and what follows the sign if there is one. -/
def unsigned : List UInt8 → Bool × List UInt8
  | 0x2D :: rest => (true, rest)
  | 0x2B :: rest => (false, rest)
  | rest => (false, rest)

/-- White space is skipped, a sign is read, then digits up to the first other character. -/
def scan (text : List UInt8) : Bool × List UInt8 :=
  let (negative, rest) := unsigned (text.dropWhile isSpace)
  (negative, rest.takeWhile isDigit)

theorem isSpace_of_isDigit {c : UInt8} (digit : isDigit c = true) : isSpace c = false := by
  simp only [isDigit, isSpace, Bool.and_eq_true, decide_eq_true_eq,
    UInt8.le_iff_toNat_le] at digit ⊢
  simp only [Bool.or_eq_false_iff, Bool.and_eq_false_iff, decide_eq_false_iff_not,
    ← UInt8.toNat_inj]
  have low : (0x30 : UInt8).toNat = 48 := rfl
  have blank : (0x20 : UInt8).toNat = 32 := rfl
  have last : (0x0D : UInt8).toNat = 13 := rfl
  omega

theorem unsigned_of_isDigit {c : UInt8} (digit : isDigit c = true) (rest : List UInt8) :
    unsigned (c :: rest) = (false, c :: rest) := by
  have minus : c ≠ 0x2D := by
    rintro rfl
    exact absurd digit (by decide)
  have plus : c ≠ 0x2B := by
    rintro rfl
    exact absurd digit (by decide)
  simp [unsigned, minus, plus]

theorem scan_numeral {text : List UInt8} (numeral : IsNumeral text) :
    scan text = (false, text) := by
  obtain ⟨nonempty, digits⟩ := numeral
  cases text with
  | nil => exact absurd rfl nonempty
  | cons c rest =>
      have first : isDigit c = true := digits c List.mem_cons_self
      have kept : (c :: rest).dropWhile isSpace = c :: rest := by
        rw [List.dropWhile_cons_of_neg (by simp [isSpace_of_isDigit first])]
      have whole : (c :: rest).takeWhile isDigit = c :: rest :=
        List.takeWhile_eq_self_iff.mpr digits
      rw [scan, kept, unsigned_of_isDigit first]
      simp only [whole]

end UdpForwarder.Numeral
